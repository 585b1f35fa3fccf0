import ShadNet.Lib.Directory
import ShadNet.Proof.Account

/-!
# Who is online

`SharedState::clients`, `npidToUserId` and `usageTotalOnline` are a directory of the accounts
that are logged in.

* `step_directory`: every event of the server is a step of that directory.
* `online_ok_iff`: the directory is in order along a run exactly when no login comes from a
  connection that is logged in, or whose cleanup has run, or has an npid that somebody online has,
  and nobody who is logged in deletes his own account.
-/

namespace ShadNet

open Lib

variable {sv : Services} {env : Env} {c : ConnId} {cs : CommandState} {sh sh' : SharedState}
  {session : ClientSession}

/-- The npid and the connection under which an account is online. -/
def SharedState.entry (sh : SharedState) (userId : ℤ) : Option (String × ConnId) :=
  (sh.clients.get? userId).map fun e => (e.npid, e.send)

/-- What a session is logged in as. -/
def ClientSession.account (session : ClientSession) : Option (ℤ × String) :=
  if session.authenticated then some (session.info.userId, session.info.npid) else none

@[simp] theorem ClientSession.cleanedUp_account (session : ClientSession) (env : Env)
    (sh : SharedState) : (session.cleanedUp env sh).account = session.account := by
  simp [ClientSession.account]

/-- A connection holds an account until its cleanup has run. -/
def Server.directory (s : Server) : Directory ℤ String ConnId where
  entry := s.shared.entry
  holds c := (s.live c).bind ClientSession.account
  named npid := s.shared.npidToUserId.get? npid
  size := s.shared.clients.size
  total := s.shared.usageTotalOnline

/-- What an event means for the directory. -/
def Server.onDirectory (sv : Services) (s : Server) : Event → Directory.Event ℤ String ConnId
  | .connect => .quiet
  | .request c cmd env =>
    match s.conns.get? c with
    | none => .quiet
    | some session =>
      match cmd with
      | .login (some req) =>
        match checkUser sv s.db req.npid req.password req.token sv.config.emailValidated with
        | none => .quiet
        | some user =>
          if user.banned ∨ (s.shared.clients.get? user.userId).isSome then .quiet
          else if c ∈ s.gone then .enter c user.userId req.npid
          else .login c user.userId req.npid
      | .delete (some (npid, password)) =>
        match checkUser sv s.db npid password "" false with
        | none => .quiet
        | some user =>
          if session.authenticated ∧ user.userId = session.info.userId ∧ env.writeOk then
            if c ∈ s.gone then .erase user.userId else .forget c
          else .quiet
      | _ => .quiet
  | .disconnect c _ => .logout c

/-! ## Entries -/

/-- The same accounts are online, under the same npids and on the same connections. -/
structure SameOnline (sh sh' : SharedState) : Prop where
  entry : sh'.entry = sh.entry
  named : sh'.npidToUserId = sh.npidToUserId
  size : sh'.clients.size = sh.clients.size
  total : sh'.usageTotalOnline = sh.usageTotalOnline

theorem SameOnline.refl (sh : SharedState) : SameOnline sh sh := ⟨rfl, rfl, rfl, rfl⟩

/-- Tables with the same npids and connections for the same accounts. -/
structure SameEntries (t t' : Table ℤ ClientEntry) : Prop where
  entry : ∀ uid, (t'.get? uid).map (fun e => (e.npid, e.send)) =
    (t.get? uid).map fun e => (e.npid, e.send)
  size : t'.size = t.size

theorem SameEntries.refl (t : Table ℤ ClientEntry) : SameEntries t t := ⟨fun _ => rfl, rfl⟩

theorem SameEntries.trans {t t' t'' : Table ℤ ClientEntry} (h : SameEntries t t')
    (h' : SameEntries t' t'') : SameEntries t t'' :=
  ⟨fun uid => (h'.entry uid).trans (h.entry uid), h'.size.trans h.size⟩

/-- A change of other fields leaves npid and connection. -/
theorem SameEntries.modify {f : ClientEntry → ClientEntry}
    (hf : ∀ e, (f e).npid = e.npid ∧ (f e).send = e.send) (t : Table ℤ ClientEntry) (uid : ℤ) :
    SameEntries t (t.modify uid f) := by
  refine ⟨fun uid' => ?_, Table.size_modify⟩
  rw [Table.get?_modify]
  -- the row of `uid` keeps its npid and its connection, the others are untouched
  split
  · rename_i heq
    subst heq
    cases t.get? uid' with
    | none => rfl
    | some e => simp [hf]
  · rfl

theorem SameEntries.ite {t t' : Table ℤ ClientEntry} {p : Prop} [Decidable p]
    (h : SameEntries t t') : SameEntries t (if p then t' else t) := by
  split
  · exact h
  · exact .refl t

theorem addOnlineFriend_same (t : Table ℤ ClientEntry) (userId friendId : ℤ) (npid : String) :
    SameEntries t (addOnlineFriend t userId friendId npid) := by
  unfold addOnlineFriend
  refine .modify ?_ t userId
  exact fun _ => ⟨rfl, rfl⟩

theorem removeOnlineFriend_same (t : Table ℤ ClientEntry) (userId friendId : ℤ) :
    SameEntries t (removeOnlineFriend t userId friendId) := by
  unfold removeOnlineFriend
  refine .modify ?_ t userId
  exact fun _ => ⟨rfl, rfl⟩

/-- Friends are entered and taken out without a change of who is online. -/
theorem updateOnlineFriends_same (t : Table ℤ ClientEntry) (info : ClientInfo)
    (command : FriendCommandType) (npid : String) (rel : RelResult) (d : RelDecision) :
    SameEntries t (updateOnlineFriends t info command npid rel d) := by
  have hadd : ∀ id npid', SameEntries t (addOnlineFriend (addOnlineFriend t info.userId id npid) id
      info.userId npid') := fun id npid' =>
    (addOnlineFriend_same t info.userId id npid).trans (addOnlineFriend_same _ id info.userId npid')
  have hremove : ∀ id, SameEntries t (removeOnlineFriend (removeOnlineFriend t info.userId id) id
      info.userId) := fun id =>
    (removeOnlineFriend_same t info.userId id).trans (removeOnlineFriend_same _ id info.userId)
  unfold updateOnlineFriends
  simp only
  -- a friendship that is now mutual is entered on both sides, one that ends is taken out of both
  split
  · split
    · exact hadd ..
    · exact .refl t
  · exact hremove _
  · exact hremove _
  · split
    · split
      · exact hremove _
      · exact .refl t
    · exact .refl t
  · exact .refl t

theorem addOnlineFriends_same (l : List (ℤ × String)) (t : Table ℤ ClientEntry) (userId : ℤ)
    (npid : String) : SameEntries t (l.foldl (fun t f => addOnlineFriend t f.1 userId npid) t) := by
  induction l generalizing t with
  | nil => exact .refl t
  | cons f l ih => exact (addOnlineFriend_same t f.1 userId npid).trans (ih _)

/-- A login puts in one entry. -/
theorem loginRegister_entry (sh : SharedState) (c : ConnId) (p : PendingLogin) :
    (loginRegister sh c p).entry =
      Function.update sh.entry p.user.userId (some (p.req.npid, c)) := by
  funext uid
  have hsame := (addOnlineFriends_same p.rels.friends sh.clients p.user.userId p.req.npid).entry uid
  unfold SharedState.entry loginRegister usageOnLogin
  rw [Function.update_apply, Table.get?_set]
  split
  · rfl
  · exact hsame

/-- The login of a user who was offline makes one entry more. -/
theorem loginRegister_size (c : ConnId) {p : PendingLogin} (hoff : sh.clients.get? p.user.userId = none) :
    (loginRegister sh c p).clients.size = sh.clients.size + 1 := by
  have hsame := addOnlineFriends_same p.rels.friends sh.clients p.user.userId p.req.npid
  -- telling the friends does not bring the account online
  have hnone := hsame.entry p.user.userId
  rw [hoff, Option.map_none, Option.map_eq_none_iff] at hnone
  exact (Table.size_set_of_none hnone).trans (congrArg (· + 1) hsame.size)

theorem SameEntries.online {clients : Table ℤ ClientEntry} (h : SameEntries sh.clients clients) :
    SameOnline sh { sh with clients } :=
  ⟨funext h.entry, rfl, h.size, rfl⟩

/-- Taking note of a user's game changes nobody who is online. -/
theorem usageTouchGame_online (sh : SharedState) (userId : ℤ) (comId : String) :
    SameOnline sh (usageTouchGame sh userId comId).1 := by
  rw [usageTouchGame_frame]
  exact ⟨rfl, rfl, rfl, rfl⟩

/-! ## Commands -/

/-- What a command does that changes nothing of who is online. -/
structure Quiet (cs : CommandState) (r : CommandResult) : Prop where
  online : SameOnline cs.shared r.1.shared
  account : r.1.session.account = cs.session.account

theorem Quiet.refuse (cs : CommandState) (e : ErrorType) : Quiet cs (cs, e, none) :=
  ⟨.refl _, rfl⟩

/-- A registration changes nobody's login. -/
theorem cmdCreate_quiet (req : Option RegistrationRequest) : Quiet cs (cmdCreate sv env cs req) := by
  rcases cmdCreate_cases sv env cs req with ⟨e, he⟩ | ⟨r, avatarUrl, e, -, -, he⟩
  · rw [he]
    exact .refuse cs e
  · rw [he]
    exact ⟨.refl _, rfl⟩

/-- A friend command changes nobody who is online. -/
theorem cmdFriend_quiet (command : FriendCommandType) (npid : Option String) :
    Quiet cs (cmdFriend env cs command npid) := by
  exact ⟨SameEntries.online (.ite (updateOnlineFriends_same ..)), rfl⟩

theorem setContext_quiet (ctxId : ℕ) (initialized : Bool) (e : ErrorType) :
    Quiet cs (setContext cs ctxId initialized, e, none) :=
  ⟨SameEntries.online (.modify (by exact fun _ => ⟨rfl, rfl⟩) _ _), rfl⟩

/-- A room command changes nobody who is online. -/
theorem onMatching_quiet (f : MatchingState → MatchingResult) : Quiet cs (onMatching cs f) :=
  ⟨⟨rfl, rfl, rfl, rfl⟩, rfl⟩

/-- The commands that may change who is online. -/
def Command.isLogin : Command → Bool
  | .login (some _) => true
  | .delete (some _) => true
  | _ => false

/-- **Commands but logins and deletions** leave everybody's login. -/
theorem dispatch_quiet {cmd : Command} (h : cmd.isLogin = false) :
    Quiet cs (dispatchCommand sv env c cs cmd) := by
  unfold dispatchCommand
  split
  · cases cmd with
    | login req =>
      cases req with
      | none => exact .refuse cs _
      | some req => cases h
    | delete req =>
      cases req with
      | none => exact .refuse cs _
      | some req => cases h
    | create req => exact cmdCreate_quiet req
    | friend command npid => exact cmdFriend_quiet command npid
    | setAppearOffline req =>
      cases req with
      | none => exact .refuse cs _
      | some enable => exact ⟨SameEntries.online (.modify (by exact fun _ => ⟨rfl, rfl⟩) _ _), rfl⟩
    | contextStart ctxId =>
      cases ctxId with
      | none => exact .refuse cs _
      | some ctxId => exact setContext_quiet ..
    | contextStop decoded =>
      cases decoded with
      | false => exact .refuse cs _
      | true => exact setContext_quiet ..
    | score comId =>
      cases comId with
      | none => exact .refuse cs _
      | some comId => exact ⟨usageTouchGame_online .., rfl⟩
    | terminate => exact .refuse cs _
    | other => exact .refuse cs _
    | _ => exact onMatching_quiet _
  · -- before a login every other command is refused
    cases cmd with
    | login req =>
      cases req with
      | none => exact .refuse cs _
      | some req => cases h
    | create req => exact cmdCreate_quiet req
    | terminate => exact .refuse cs _
    | _ => exact .refuse cs _

/-- **A login that is let through**: the credentials are right, the account is not banned, and
it is not online. -/
structure Accepted (sv : Services) (cs : CommandState) (req : LoginRequest) (user : UserRecord) :
    Prop where
  check : checkUser sv cs.db req.npid req.password req.token sv.config.emailValidated = some user
  notBanned : user.banned = false
  offline : cs.shared.clients.get? user.userId = none

/-- Such a login is checked with success. -/
theorem Accepted.loginCheck {req : LoginRequest} {user : UserRecord}
    (h : Accepted sv cs req user) : loginCheck sv env cs (some req) =
      .ok (adoptUser cs.shared cs.session user req.titleId,
        ⟨user, req, getRelationships cs.db user.userId env.readOk⟩) := by
  unfold ShadNet.loginCheck
  simp [h.check, h.notBanned, h.offline]

/-- A login that no user's credentials accept is refused. -/
theorem loginCheck_refused (env : Env) {req : LoginRequest} (h : ∀ user, ¬ Accepted sv cs req user) :
    ∃ e, loginCheck sv env cs (some req) = .error e := by
  unfold loginCheck
  simp only
  split
  · exact ⟨_, rfl⟩
  · rename_i user hcheck
    by_cases hbanned : user.banned = true
    · exact ⟨_, if_pos hbanned⟩
    · rw [if_neg hbanned]
      by_cases honline : (cs.shared.clients.get? user.userId).isSome = true
      · exact ⟨_, if_pos honline⟩
      · exact absurd ⟨hcheck, by simpa using hbanned, by simpa using honline⟩ (h user)

/-- A login that is not accepted changes nobody who is online. -/
theorem cmdLogin_quiet {req : LoginRequest} (h : ∀ user, ¬ Accepted sv cs req user) :
    Quiet cs (cmdLogin sv env c cs (some req)) := by
  obtain ⟨e, he⟩ := loginCheck_refused env h
  unfold cmdLogin
  simp only [he]
  exact .refuse cs e

/-- Whoever deletes his own account is logged out. -/
theorem cmdDelete_self (cs : CommandState) {npid password : String} {user : UserRecord}
    (hcheck : checkUser sv cs.db npid password "" false = some user)
    (hself : user.userId = cs.session.info.userId) (hok : env.writeOk = true) :
    (cmdDelete sv env cs (some (npid, password))).1 =
      ⟨deleteUser cs.db user.userId,
        { cs.shared with clients := cs.shared.clients.del cs.session.info.userId },
        { cs.session with authenticated := false }⟩ := by
  unfold cmdDelete
  simp only [hcheck, hself, hok, ne_eq, not_true_eq_false, false_and, if_false, Bool.not_true,
    Bool.false_eq_true, if_true]

/-- To delete somebody else's account changes nothing. -/
theorem cmdDelete_quiet {npid password : String}
    (h : ∀ user, checkUser sv cs.db npid password "" false = some user →
      user.userId = cs.session.info.userId → env.writeOk = false) :
    Quiet cs (cmdDelete sv env cs (some (npid, password))) := by
  rcases cmdDelete_cases sv env cs (some (npid, password)) with
    ⟨e, he⟩ | ⟨npid', password', user, hreq, hcheck, hwrite, hself, -⟩ | ⟨userId, -, he⟩
  · rw [he]
    exact .refuse cs e
  · obtain ⟨rfl, rfl⟩ := Prod.mk.inj (Option.some.inj hreq)
    rw [h user hcheck hself] at hwrite
    cases hwrite
  · rw [he]
    exact ⟨.refl _, rfl⟩

/-! ## Disconnects -/

theorem usageOnLogout_eq (sh : SharedState) (userId : ℤ) :
    (usageOnLogout sh userId).clients = sh.clients ∧
      (usageOnLogout sh userId).npidToUserId = sh.npidToUserId ∧
      (usageOnLogout sh userId).usageTotalOnline =
        if 0 < sh.usageTotalOnline then sh.usageTotalOnline - 1 else sh.usageTotalOnline := by
  unfold usageOnLogout
  simp only
  split <;> exact ⟨rfl, rfl, rfl⟩

/-- A disconnect takes the entry of its user away. -/
theorem cleanup_clients (env : Env) (session : ClientSession) (sh : SharedState) :
    (cleanupOnDisconnect env session sh).clients =
      if session.authenticated then sh.clients.del session.info.userId else sh.clients := by
  unfold cleanupOnDisconnect
  cases session.authenticated with
  | false => rfl
  | true =>
    simp only [Bool.not_true, Bool.false_eq_true, if_false, if_true]
    rw [(usageOnLogout_eq _ _).1]
    split
    · rfl
    · rename_i hoff
      rw [Table.del_of_none (by simpa using hoff)]

/-- The cleanup takes the user's name out if he had an entry. -/
theorem cleanup_named (hauth : session.authenticated = true) :
    (cleanupOnDisconnect env session sh).npidToUserId =
      if (sh.clients.get? session.info.userId).isSome then sh.npidToUserId.del session.info.npid
      else sh.npidToUserId := by
  unfold cleanupOnDisconnect
  simp only [hauth, Bool.not_true, Bool.false_eq_true, if_false]
  rw [(usageOnLogout_eq _ _).2.1]
  split <;> rfl

/-- The cleanup counts one user less. -/
theorem cleanup_total (hauth : session.authenticated = true) :
    (cleanupOnDisconnect env session sh).usageTotalOnline =
      if 0 < sh.usageTotalOnline then sh.usageTotalOnline - 1 else sh.usageTotalOnline := by
  unfold cleanupOnDisconnect
  simp only [hauth, Bool.not_true, Bool.false_eq_true, if_false]
  rw [(usageOnLogout_eq _ _).2.2]
  split <;> rfl

/-! ## The server as a directory -/

variable {s : Server}

/-- What the connections hold after a request. -/
theorem holds_set (db : Database) (sh : SharedState) (after : ClientSession) (c' : ConnId) :
    ({ s with db := db, shared := sh, conns := s.conns.set c after } : Server).directory.holds c' =
      if c' = c then if c ∈ s.gone then none else after.account else s.directory.holds c' := by
  simp only [Server.directory, Server.live, Table.get?_set]
  by_cases hc' : c' = c
  · subst hc'
    simp only [if_true]
    split <;> rfl
  · simp only [if_neg hc']

/-- A connection that is gone holds nobody. -/
theorem holds_gone (hgone : c ∈ s.gone) : s.directory.holds c = none := by
  simp [Server.directory, Server.live, hgone]

/-- One that is there holds whom its session is logged in as. -/
theorem holds_live (hgone : c ∉ s.gone) (hc : s.conns.get? c = some session) :
    s.directory.holds c = session.account := by
  simp [Server.directory, Server.live, hgone, hc]

/-- A quiet command leaves the directory. -/
theorem quiet_directory {r : CommandResult} (hc : s.conns.get? c = some session)
    (h : Quiet ⟨s.db, s.shared, session⟩ r) :
    ({ s with db := r.1.db, shared := r.1.shared, conns := s.conns.set c r.1.session } : Server).directory =
      s.directory := by
  ext1
  · exact h.online.entry
  · funext c'
    rw [holds_set]
    split
    · rename_i heq
      subst heq
      split
      · rename_i hgone
        exact (holds_gone hgone).symm
      · rename_i hgone
        exact h.account.trans (holds_live hgone hc).symm
    · rfl
  · simp only [Server.directory, h.online.named]
  · exact h.online.size
  · exact h.online.total

/-- A login is one of the directory, on a connection that is there or not. -/
theorem login_directory {req : LoginRequest} {user : UserRecord}
    (h : Accepted sv ⟨s.db, s.shared, session⟩ req user) :
    let r := (cmdLogin sv env c ⟨s.db, s.shared, session⟩ (some req)).1
    ({ s with db := r.db, shared := r.shared, conns := s.conns.set c r.session } : Server).directory =
      if c ∈ s.gone then s.directory.enter c user.userId req.npid
      else s.directory.login c user.userId req.npid := by
  intro r
  have hr : r = ⟨s.db, loginRegister s.shared c ⟨user, req, getRelationships s.db user.userId env.readOk⟩,
      adoptUser s.shared session user req.titleId⟩ := by
    simp only [r, cmdLogin, h.loginCheck]
  rw [hr]
  -- the connection takes the name from the account, which is the one it asked for
  have haccount : (adoptUser s.shared session user req.titleId).account = some (user.userId, req.npid) := by
    rw [← (checkUser_found h.check).2]
    rfl
  have hnamed : ∀ npid, (s.shared.npidToUserId.set req.npid user.userId).get? npid =
      Function.update s.directory.named req.npid (some user.userId) npid := fun npid => by
    rw [Table.get?_set, Function.update_apply]
    rfl
  split
  · rename_i hgone
    ext1
    · exact loginRegister_entry ..
    · funext c'
      rw [holds_set, if_pos hgone]
      split
      · rename_i heq
        rw [heq]
        exact (holds_gone hgone).symm
      · rfl
    · exact funext hnamed
    · exact loginRegister_size c h.offline
    · rfl
  · rename_i hgone
    ext1
    · exact loginRegister_entry ..
    · funext c'
      rw [holds_set, if_neg hgone, haccount]
      simp only [Directory.login, Function.update_apply]
    · exact funext hnamed
    · exact loginRegister_size c h.offline
    · rfl

theorem delete_directory (s : Server) (c : ConnId) (session : ClientSession) (db : Database) :
    ({ s with
      db := db
      shared := { s.shared with clients := s.shared.clients.del session.info.userId }
      conns := s.conns.set c { session with authenticated := false } } : Server).directory =
      if c ∈ s.gone then s.directory.erase session.info.userId
      else s.directory.drop c session.info.userId := by
  have hentry : ({ s.shared with clients := s.shared.clients.del session.info.userId } :
      SharedState).entry = Function.update s.shared.entry session.info.userId none := by
    funext uid
    simp only [SharedState.entry, Table.get?_del, Function.update_apply]
    split <;> rfl
  have hsize : (s.shared.clients.del session.info.userId).size =
      if (s.shared.entry session.info.userId).isSome then s.shared.clients.size - 1
      else s.shared.clients.size := by
    simp only [SharedState.entry, Option.isSome_map]
    exact Table.size_del
  split
  · rename_i hgone
    ext1
    · exact hentry
    · funext c'
      rw [holds_set, if_pos hgone]
      split
      · rename_i heq
        rw [heq]
        exact (holds_gone hgone).symm
      · rfl
    · rfl
    · exact hsize
    · rfl
  · rename_i hgone
    ext1
    · exact hentry
    · funext c'
      rw [holds_set, if_neg hgone]
      simp only [Directory.drop, Function.update_apply]
      rfl
    · rfl
    · exact hsize
    · rfl

/-- After its cleanup a connection holds nothing. -/
theorem holds_disconnect (sh : SharedState) (after : ClientSession) (c' : ConnId) :
    ({ s with shared := sh, conns := s.conns.set c after, gone := c :: s.gone } : Server).directory.holds c' =
      if c' = c then none else s.directory.holds c' := by
  simp only [Server.directory, Server.live, List.mem_cons, Table.get?_set]
  by_cases hc' : c' = c <;> simp [hc']

/-- A disconnect is a logout of the directory. -/
theorem disconnect_directory (hc : s.live c = some session) :
    (s.step sv (.disconnect c env)).directory = s.directory.step (.logout c) := by
  simp only [Server.step, hc]
  cases hauth : session.authenticated with
  | false =>
    -- without a login the cleanup returns at once
    have hsame : cleanupOnDisconnect env session s.shared = s.shared := by
      simp [cleanupOnDisconnect, hauth]
    have hnone : s.directory.holds c = none := by
      simp [Server.directory, hc, ClientSession.account, hauth]
    simp only [Directory.step, hnone, hsame]
    ext1 <;> try rfl
    funext c'
    rw [holds_disconnect]
    split
    · rename_i heq
      rw [heq, hnone]
    · rfl
  | true =>
    have hholds : s.directory.holds c = some (session.info.userId, session.info.npid) := by
      simp [Server.directory, hc, ClientSession.account, hauth]
    have hsome : (s.directory.entry session.info.userId).isSome =
        (s.shared.clients.get? session.info.userId).isSome := by
      simp [Server.directory, SharedState.entry]
    simp only [Directory.step, hholds]
    ext1
    · funext uid
      simp only [Server.directory, Directory.logout, Directory.drop, Directory.erase,
        SharedState.entry, cleanup_clients, hauth, if_true, Table.get?_del, Function.update_apply]
      split <;> rfl
    · funext c'
      rw [holds_disconnect]
      simp only [Directory.logout, Directory.drop, Function.update_apply]
    · funext npid
      simp only [Directory.logout, Directory.drop, Directory.erase, hsome]
      simp only [Server.directory, cleanup_named hauth]
      split
      · simp only [Table.get?_del, Function.update_apply]
      · rfl
    · simp only [Directory.logout, Directory.drop, Directory.erase, hsome]
      simp only [Server.directory, cleanup_clients, hauth, if_true]
      exact Table.size_del
    · exact cleanup_total hauth

theorem dispatch_login (req : Option LoginRequest) :
    dispatchCommand sv env c cs (.login req) = cmdLogin sv env c cs req := by
  unfold dispatchCommand
  split <;> rfl

/-- Numbers that were not given yet belong to no connection. -/
def Server.Fresh (s : Server) : Prop := ∀ c, s.nextConn ≤ c → s.conns.get? c = none

theorem connect_directory (h : s.Fresh) : (s.step sv .connect).directory = s.directory := by
  ext1 <;> try rfl
  funext c'
  refine (holds_set s.db s.shared {} c').trans ?_
  by_cases hc' : c' = s.nextConn
  · have hnone : s.conns.get? c' = none := h c' hc'.ge
    subst hc'
    simp [Server.directory, Server.live, hnone, ClientSession.account]
  · rw [if_neg hc']

theorem request_login (hc : s.conns.get? c = some session) (req : LoginRequest) :
    (s.step sv (.request c (.login (some req)) env)).directory =
      s.directory.step (s.onDirectory sv (.request c (.login (some req)) env)) := by
  have hquiet : (∀ user, ¬ Accepted sv ⟨s.db, s.shared, session⟩ req user) →
      (s.step sv (.request c (.login (some req)) env)).directory = s.directory := by
    intro h
    simp only [Server.step, hc, dispatch_login]
    exact quiet_directory hc (cmdLogin_quiet h)
  simp only [Server.onDirectory, hc]
  split
  · rename_i hcheck
    exact hquiet fun user ha => by cases hcheck.symm.trans ha.check
  · rename_i user hcheck
    -- `onDirectory` counts as a login just what `loginCheck` lets through
    by_cases hno : user.banned = true ∨ (s.shared.clients.get? user.userId).isSome = true
    · rw [if_pos hno]
      refine hquiet fun user' ha => ?_
      obtain rfl := Option.some.inj (hcheck.symm.trans ha.check)
      have hoff : s.shared.clients.get? user.userId = none := ha.offline
      simp [ha.notBanned, hoff] at hno
    · rw [if_neg hno]
      push Not at hno
      simp only [Server.step, hc, dispatch_login]
      rw [login_directory ⟨hcheck, by simpa using hno.1, by simpa using hno.2⟩]
      split <;> rfl

theorem request_delete (hc : s.conns.get? c = some session) (npid password : String) :
    (s.step sv (.request c (.delete (some (npid, password))) env)).directory =
      s.directory.step (s.onDirectory sv (.request c (.delete (some (npid, password))) env)) := by
  by_cases hauth : session.authenticated = true
  · have hdispatch : dispatchCommand sv env c ⟨s.db, s.shared, session⟩
        (.delete (some (npid, password))) =
        cmdDelete sv env ⟨s.db, s.shared, session⟩ (some (npid, password)) := if_pos hauth
    simp only [Server.step, Server.onDirectory, hc, hdispatch, hauth, true_and]
    split
    · rename_i hcheck
      exact quiet_directory hc (cmdDelete_quiet fun user h => by cases hcheck.symm.trans h)
    · rename_i user hcheck
      by_cases hself : user.userId = session.info.userId ∧ env.writeOk = true
      · rw [if_pos hself, cmdDelete_self ⟨s.db, s.shared, session⟩ hcheck hself.1 hself.2, hself.1]
        simp only
        rw [delete_directory]
        split
        · rfl
        · rename_i hgone
          have hholds : s.directory.holds c = some (session.info.userId, session.info.npid) := by
            simp [holds_live hgone hc, ClientSession.account, hauth]
          simp only [Directory.step, hholds]
      · rw [if_neg hself]
        refine quiet_directory hc (cmdDelete_quiet fun user' hcheck' hid => ?_)
        obtain rfl := Option.some.inj (hcheck.symm.trans hcheck')
        simpa using fun hwrite => hself ⟨hid, hwrite⟩
  · -- without a login the command is not dispatched
    have hdispatch : dispatchCommand sv env c ⟨s.db, s.shared, session⟩
        (.delete (some (npid, password))) = (⟨s.db, s.shared, session⟩, .unauthorized, none) :=
      if_neg hauth
    have hquiet := quiet_directory hc (.refuse ⟨s.db, s.shared, session⟩ .unauthorized)
    simp only [Server.step, Server.onDirectory, hc, hdispatch, hauth, Bool.false_eq_true, false_and,
      if_false]
    split <;> exact hquiet

/-- **The server is a directory**: each event is a step of it. -/
theorem step_directory (h : s.Fresh) (e : Event) :
    (s.step sv e).directory = s.directory.step (s.onDirectory sv e) := by
  cases e with
  | connect => exact connect_directory h
  | disconnect c env =>
    cases hc : s.live c with
    | none =>
      have hnone : s.directory.holds c = none := by simp [Server.directory, hc]
      simp [Server.step, Server.onDirectory, Directory.step, hc, hnone]
    | some session => exact disconnect_directory hc
  | request c cmd env =>
    cases hc : s.conns.get? c with
    | none => simp [Server.step, Server.onDirectory, Directory.step, hc]
    | some session =>
      have hother : cmd.isLogin = false →
          (s.step sv (.request c cmd env)).directory = s.directory := by
        intro hcmd
        simp only [Server.step, hc]
        exact quiet_directory hc (dispatch_quiet hcmd)
      cases cmd with
      | login req =>
        cases req with
        | none => simpa only [Server.onDirectory, hc, Directory.step] using hother rfl
        | some req => exact request_login hc req
      | delete req =>
        cases req with
        | none => simpa only [Server.onDirectory, hc, Directory.step] using hother rfl
        | some req => exact request_delete hc req.1 req.2
      | _ => simpa only [Server.onDirectory, hc, Directory.step] using hother rfl

/-- Whatever happens to the directory can happen there. -/
theorem onDirectory_enabled (s : Server) (e : Event) : s.directory.Enabled (s.onDirectory sv e) := by
  cases e with
  | connect => trivial
  | disconnect c env => trivial
  | request c cmd env =>
    unfold Server.onDirectory
    simp only
    split
    · trivial
    · rename_i session hc
      split
      · split
        · trivial
        · split
          · trivial
          · rename_i hno
            push Not at hno
            have hoff := hno.2
            rw [ne_eq, Bool.not_eq_true, Option.isSome_eq_false_iff, Option.isNone_iff_eq_none] at hoff
            split
            · rename_i hgone
              exact holds_gone hgone
            · simp [Directory.Enabled, Server.directory, SharedState.entry, hoff]
      · split
        · trivial
        · split
          · rename_i hself
            split
            · trivial
            · rename_i hgone
              simp [Directory.Enabled, holds_live hgone hc, ClientSession.account, hself.1]
          · trivial
      · trivial

theorem step_fresh (h : s.Fresh) (e : Event) : (s.step sv e).Fresh := by
  -- a live connection has a number that was given
  have hset : ∀ c session c', s.conns.get? c = some session → s.nextConn ≤ c' → c' ≠ c := by
    rintro c session c' hc hle rfl
    rw [h c' hle] at hc
    cases hc
  cases e with
  | connect =>
    intro c hle
    have hne : c ≠ s.nextConn := Nat.ne_of_gt hle
    exact (Table.get?_set_ne hne).trans (h c (Nat.le_of_succ_le hle))
  | request c cmd env =>
    unfold Server.step
    cases hc : s.conns.get? c with
    | none => simpa only [hc] using h
    | some session =>
      simp only [hc]
      intro c' hle
      have hne := hset c session c' hc hle
      exact (Table.get?_set_ne hne).trans (h c' hle)
  | disconnect c env =>
    unfold Server.step
    cases hc : s.live c with
    | none => simpa only [hc] using h
    | some session =>
      simp only [hc]
      intro c' hle
      have hne := hset c session c' (Server.live_eq_some.mp hc).2 hle
      exact (Table.get?_set_ne hne).trans (h c' hle)

theorem directory_enumerated (s : Server) : s.directory.Enumerated := by
  intro uid hsome
  simp only [Server.directory, SharedState.entry, Option.isSome_map] at hsome
  obtain ⟨e, he⟩ := Option.isSome_iff_exists.mp hsome
  exact Table.size_pos_of_some he

/-- **Who is online.** Along a run the accounts in `clients` are those of the live connections
that are logged in, one connection for each and the one that its entry sends to, `npidToUserId`
has the npids of these entries, and `usageTotalOnline` is their number, if and only if no login
is let through on a connection that is logged in or whose cleanup has run, or under an npid that is
online, and no connection that is logged in deletes its own account, unless its cleanup has run and
the account is not online. -/
theorem online_ok_iff (sv : Services) (db : Database) (events : List Event) :
    (∀ n, (serverAfter sv db events n).directory.Ok) ↔
      ∀ n (hn : n < events.length), (serverAfter sv db events n).directory.Clean
        ((serverAfter sv db events n).onDirectory sv events[n]) := by
  -- what one event does to the order of the directory
  have hstep : ∀ (s : Server) (e : Event), s.Fresh → s.directory.Agree → s.directory.Ok →
      ((s.step sv e).directory.Ok ↔ s.directory.Clean (s.onDirectory sv e)) := by
    intro s e hfresh hagree hok
    have hsize := directory_enumerated s
    have henabled : s.directory.Enabled (s.onDirectory sv e) := onDirectory_enabled s e
    rw [step_directory hfresh]
    exact Directory.step_ok_iff hok hagree hsize henabled
  refine runAt_iff_guard (I := fun s : Server => s.Fresh ∧ s.directory.Agree)
    (P := fun s : Server => s.directory.Ok)
    (G := fun s e => s.directory.Clean (s.onDirectory sv e)) ⟨?_, ?_⟩ ?_ ?_ ?_ ?_
  · intro c _
    rfl
  · intro c id name name' hc
    cases hc
  · intro s e ⟨hfresh, hagree⟩
    refine ⟨step_fresh hfresh e, ?_⟩
    rw [step_directory hfresh]
    exact Directory.step_agree hagree (onDirectory_enabled s e)
  · exact ⟨fun _ _ => ⟨nofun, nofun⟩, fun _ _ => ⟨nofun, nofun⟩, rfl⟩
  · intro s e ⟨hfresh, hagree⟩ hok hclean
    exact (hstep s e hfresh hagree hok).mpr hclean
  · intro s e ⟨hfresh, hagree⟩ hok hclean hok'
    exact hclean ((hstep s e hfresh hagree hok).mp hok')

/-- Alice logs in, then Bob on the same connection, and the connection goes. -/
theorem alice_stays_online :
    ¬ ∀ sv db events n, (serverAfter sv db events n).directory.Ok := by
  intro h
  let events : List Event :=
    [.connect, .request 0 (.login (some ⟨"alice", "alice", "", "", "", false⟩)) .plain,
      .request 0 (.login (some ⟨"bob", "bob", "", "", "", false⟩)) .plain, .disconnect 0 .plain]
  let d := (serverAfter .plain aliceAndBob events 4).directory
  have hentry : d.entry 1 = some ("alice", 0) := by decide
  have hgone : d.holds 0 = none := by decide
  obtain ⟨npid, hholds⟩ := ((h .plain aliceAndBob events 4).entries 1 0).mp ⟨"alice", hentry⟩
  cases hgone.symm.trans hholds

end ShadNet
