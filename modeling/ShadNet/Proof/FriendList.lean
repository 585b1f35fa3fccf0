import ShadNet.Proof.AppearOffline
import ShadNet.Proof.FriendCache
import ShadNet.Spec.FriendList

/-!
# What friend lists should say

* `named_iff`: an npid names the account that is registered with it, spelled like that.
* `step_listsInv`: each client that is there has a connection to itself, and accounts keep their names.
* `hear_iff`: what an event has to tell a client whose list is right, for it to be right again.
* `request_silent`: most commands have nothing to tell.
-/

namespace ShadNet

open Lib FriendStatus

variable {sv : Services} {s : Server} {w : FriendLists} {e : Event} {cs : CommandState} {env : Env}
  {c c' : ConnId} {session : ClientSession} {clients clients' : Table ℤ ClientEntry}
  {t t' : Friendship} {db : Database} {u v o x : ℤ} {npid name : String}

/-! ## Names -/

/-- The account that is registered with the npid. -/
def Database.named (db : Database) (npid : String) : Option ℤ :=
  (db.accounts.find? fun a => a.username = npid).map (·.userId)

/-- The account of an npid is the one that is registered with it, and the other way round. -/
theorem named_iff (hids : db.IdsOk) (hnames : db.UniqueNames) :
    db.named npid = some o ↔ getUsername db o = some npid := by
  unfold Database.named getUsername
  constructor
  · intro h
    obtain ⟨a, ha, rfl⟩ := Option.map_eq_some_iff.mp h
    have hname := List.find?_some ha
    cases hb : db.accounts.find? fun b => b.userId = a.userId with
    | none => simpa using List.find?_eq_none.mp hb a (List.mem_of_find?_eq_some ha)
    | some b =>
      have hid := List.find?_some hb
      obtain rfl := hids.unique b (List.mem_of_find?_eq_some hb) a (List.mem_of_find?_eq_some ha)
        (of_decide_eq_true hid)
      rw [Option.map_some, of_decide_eq_true hname]
  · intro h
    obtain ⟨a, ha, rfl⟩ := Option.map_eq_some_iff.mp h
    have hid := List.find?_some ha
    cases hb : db.accounts.find? fun b => b.username = a.username with
    | none => simpa using List.find?_eq_none.mp hb a (List.mem_of_find?_eq_some ha)
    | some b =>
      have hname := List.find?_some hb
      obtain rfl := hnames b (List.mem_of_find?_eq_some hb) a (List.mem_of_find?_eq_some ha)
        (congrArg noCase (of_decide_eq_true hname))
      rw [Option.map_some, of_decide_eq_true hid]

/-- However an npid is spelled that an account is found by, it names no other account. -/
theorem named_of_found (hnames : db.UniqueNames) (hfound : getUserId db name = some o)
    (hnamed : db.named name = some x) : x = o := by
  obtain ⟨a, ha, rfl⟩ := Option.map_eq_some_iff.mp hnamed
  have hspelled := List.find?_some ha
  have hname : a.username = name := of_decide_eq_true hspelled
  have hfind := hnames.findUser (List.mem_of_find?_eq_some ha)
  unfold getUserId at hfound
  rw [← hname, hfind] at hfound
  exact Option.some.inj hfound

/-- A registration leaves the names that users have. -/
theorem createAccount_getUsername (sv : Services) (aenv : AccountEnv)
    (npid' password avatarUrl email : String) (h : getUsername db o = some npid) :
    getUsername (createAccount sv aenv db npid' password avatarUrl email).1 o = some npid := by
  rcases createAccount_cases sv aenv db npid' password avatarUrl email with
    heq | ⟨account, -, -, -, -, heq⟩
  · rw [heq]
    exact h
  · obtain ⟨a, ha, hname⟩ := Option.map_eq_some_iff.mp h
    rw [heq]
    unfold getUsername
    rw [List.find?_append, ha, Option.some_or, Option.map_some, hname]

/-! ## Friends and their flags -/

/-- The user is online, and does not appear offline. -/
def shown (clients : Table ℤ ClientEntry) (userId : ℤ) : Bool :=
  ((appears clients userId).map not).getD false

/-- What table and `clients` say of `o` as a friend of `v`; nothing if he is none. -/
def friendState (t : Friendship) (clients : Table ℤ ClientEntry) (v o : ℤ) : Option Bool :=
  if (relStatus t v o).areFriends then some (shown clients o) else none

/-- The flag that a friend list of `v` should have under an npid. -/
def Server.friendFlag (s : Server) (v : ℤ) (npid : String) : Option Bool :=
  (s.db.named npid).bind (friendState s.db.friendship s.shared.clients v)

/-- The account is online, on a connection that is still there. -/
def Server.Reached (s : Server) (v : ℤ) (c : ConnId) : Prop :=
  c ∉ s.gone ∧ ∃ entry, s.shared.clients.get? v = some entry ∧ entry.send = c

/-- **The list of every client that is there is right.** -/
def FriendLists.UpToDate (w : FriendLists) : Prop :=
  ∀ v c, w.server.Reached v c → Mirrors (w.lists c) (w.server.friendFlag v)

/-- Who is not online is not seen online. -/
theorem shown_of_none (h : clients.get? o = none) : shown clients o = false := by
  unfold shown appears
  rw [h]
  rfl

theorem shown_of_some {entry : ClientEntry} (h : clients.get? o = some entry) :
    shown clients o = !entry.appearOffline := by
  unfold shown appears
  rw [h]
  rfl

theorem shown_congr (h : appears clients' o = appears clients o) : shown clients' o = shown clients o := by
  unfold shown
  rw [h]

/-- Friends are friends of each other. -/
theorem areFriends_comm : (relStatus t u o).areFriends = (relStatus t o u).areFriends := by
  rw [Bool.eq_iff_iff, ← bothFriends_iff_areFriends, ← bothFriends_iff_areFriends]
  exact bothFriends_comm

/-- Nobody is his own friend. -/
theorem not_areFriends_self (h : Ordered t) : (relStatus t u u).areFriends = false := by
  rw [← Bool.not_eq_true, ← bothFriends_iff_areFriends]
  rintro ⟨status, hrow, -⟩
  have hlt := h _ _ hrow
  simp at hlt

/-- An id that no account has is nobody's friend. -/
theorem not_areFriends_unnamed (h : db.Schema) (hno : ¬ db.Named o) :
    (relStatus db.friendship v o).areFriends = false := by
  rw [← Bool.not_eq_true, ← bothFriends_iff_areFriends]
  rintro ⟨status, hrow, -⟩
  have hnamed := h.named _ _ hrow
  rcases le_total v o with hle | hle
  · rw [max_eq_right hle] at hnamed
    exact hno hnamed.2
  · rw [min_eq_right hle] at hnamed
    exact hno hnamed.1

/-- What is seen of a friend depends on the friendship and on how he appears. -/
theorem friendState_congr (hrel : (relStatus t' v o).areFriends = (relStatus t v o).areFriends)
    (hshown : shown clients' o = shown clients o) :
    friendState t' clients' v o = friendState t clients v o := by
  unfold friendState
  rw [hrel, hshown]

/-- The flag under an npid is that of its account. -/
theorem friendFlag_named (h : s.db.named npid = some o) :
    s.friendFlag v npid = friendState s.db.friendship s.shared.clients v o := by
  unfold Server.friendFlag
  rw [h, Option.bind_some]

theorem friendFlag_unnamed (h : s.db.named npid = none) : s.friendFlag v npid = none := by
  unfold Server.friendFlag
  rw [h, Option.bind_none]

/-- A registration puts nobody into a list. -/
theorem friendFlag_create {s' : Server} (hschema : s.db.Schema) (hids : s.db.IdsOk) (aenv : AccountEnv)
    (npid' password avatarUrl email : String)
    (hdb : s'.db = (createAccount sv aenv s.db npid' password avatarUrl email).1)
    (happears : appears s'.shared.clients = appears s.shared.clients) (v : ℤ) (npid : String) :
    s'.friendFlag v npid = s.friendFlag v npid := by
  have hshown : ∀ o, shown s'.shared.clients o = shown s.shared.clients o := fun o =>
    shown_congr (congrFun happears o)
  rcases createAccount_cases sv aenv s.db npid' password avatarUrl email with
    heq | ⟨account, -, -, hid, -, heq⟩
  · rw [heq] at hdb
    unfold Server.friendFlag
    rw [hdb]
    exact congrArg _ (funext fun o => friendState_congr rfl (hshown o))
  · rw [heq] at hdb
    unfold Server.friendFlag Database.named
    rw [hdb, List.find?_append]
    cases hfind : s.db.accounts.find? fun a => a.username = npid with
    | some a =>
      rw [Option.some_or]
      exact friendState_congr rfl (hshown _)
    | none =>
      -- if the name is the new one, its id is in no row
      rw [Option.none_or, Option.map_none, Option.bind_none]
      have hno : ¬ s.db.Named account.userId := by
        unfold Database.Named getUsername
        rw [Option.isSome_map, List.find?_isSome]
        rintro ⟨a, ha, hauid⟩
        have hle := hids.given a ha
        rw [of_decide_eq_true hauid] at hle
        omega
      rw [Option.bind_eq_none_iff]
      intro o ho
      obtain ⟨a, ha, rfl⟩ := Option.map_eq_some_iff.mp ho
      obtain rfl := List.mem_singleton.mp (List.mem_of_find?_eq_some ha)
      unfold friendState
      rw [not_areFriends_unnamed hschema hno]
      rfl

/-! ## Connections and their accounts -/

/-- A client that is there is the one that its connection is logged in for. -/
def Server.Owned (s : Server) : Prop :=
  ∀ v c, s.Reached v c → ∃ npid, s.directory.holds c = some (v, npid)

/-- Who is reached where can be read off the directory. -/
theorem reached_iff : s.Reached v c ↔ c ∉ s.gone ∧ ∃ npid, s.directory.entry v = some (npid, c) := by
  refine and_congr_right fun _ => ?_
  simp only [Server.directory, SharedState.entry, Option.map_eq_some_iff, Prod.mk.injEq]
  constructor
  · rintro ⟨entry, he, rfl⟩
    exact ⟨entry.npid, entry, he, rfl, rfl⟩
  · rintro ⟨_, entry, he, -, hsend⟩
    exact ⟨entry, he, hsend⟩

/-- Only one user is reached on a connection. -/
theorem Server.Owned.eq (h : s.Owned) (hu : s.Reached u c) (hv : s.Reached v c) : u = v := by
  obtain ⟨n, hn⟩ := h u c hu
  obtain ⟨n', hn'⟩ := h v c hv
  exact (Prod.mk.inj (Option.some.inj (hn.symm.trans hn'))).1

/-- An entry with the connection of a client is his own. -/
theorem Server.Owned.of_send {entry : ClientEntry} (h : s.Owned) (hv : s.Reached v c)
    (he : s.shared.clients.get? o = some entry) (hsend : entry.send = c) : v = o :=
  h.eq hv ⟨hv.1, entry, he, hsend⟩

/-- Whoever speaks on a connection with a client is that client. -/
theorem Server.Owned.caller (h : s.Owned) (hc : s.conns.get? c = some session)
    (hauth : session.authenticated = true) (hv : s.Reached v c) : v = session.info.userId := by
  obtain ⟨n, hn⟩ := h v c hv
  rw [holds_live hv.1 hc, ClientSession.account, if_pos hauth] at hn
  exact (Prod.mk.inj (Option.some.inj hn)).1.symm

/-- **What the lists rest on.** -/
structure ListsInv (s : Server) : Prop where
  friends : FriendsInv s
  ids : s.db.IdsOk
  names : s.db.UniqueNames
  /-- a session has the npid of its account -/
  spelled : ∀ c session u npid, s.conns.get? c = some session → session.account = some (u, npid) →
    getUsername s.db u = some npid
  owned : s.Owned
  fresh : s.Fresh

theorem ListsInv.named (h : ListsInv s) : s.db.named npid = some o ↔ getUsername s.db o = some npid :=
  named_iff h.ids h.names

/-- Whoever speaks is registered under the npid of his session. -/
theorem ListsInv.caller_named (h : ListsInv s) (hc : s.conns.get? c = some session)
    (hauth : session.authenticated = true) : s.db.named session.info.npid = some session.info.userId :=
  h.named.mpr (h.spelled c session _ _ hc (if_pos hauth))

/-- No connection that is there logs in a second time. -/
def Server.LoginsOnce (s : Server) : Event → Prop
  | .request c (.login _) _ => ∀ session, s.live c = some session → session.authenticated = false
  | _ => True

/-- Events of the directory that keep it `Owned`. -/
theorem Server.Owned.of_same (h : s.Owned) {s' : Server} (hd : s'.directory = s.directory)
    (hgone : s'.gone = s.gone) : s'.Owned := by
  intro v c hv
  rw [reached_iff, hd, hgone, ← reached_iff] at hv
  rw [hd]
  exact h v c hv

/-- Before a login nobody is reached on its connection. -/
theorem Server.Owned.unreached (h : s.Owned) (hc : s.conns.get? c = some session)
    (honce : ∀ session, s.live c = some session → session.authenticated = false) (v : ℤ) :
    ¬ s.Reached v c := by
  intro hv
  obtain ⟨n, hn⟩ := h v c hv
  rw [holds_live hv.1 hc, ClientSession.account,
    honce session (Server.live_eq_some.mpr ⟨hv.1, hc⟩)] at hn
  cases hn

/-- After a login its connection belongs to its user. -/
theorem login_owned {req : LoginRequest} {user : UserRecord} (h : s.Owned)
    (hc : s.conns.get? c = some session) (hacc : Accepted sv ⟨s.db, s.shared, session⟩ req user)
    (honce : ∀ session, s.live c = some session → session.authenticated = false) :
    (s.step sv (.request c (.login (some req)) env)).Owned := by
  simp only [Server.step, hc, dispatch_login]
  intro v c' hv
  rw [reached_iff, login_directory hacc] at hv
  rw [login_directory hacc]
  obtain ⟨hlive, npid, hentry⟩ := hv
  split at hentry
  · -- the connection is gone: the new entry is nobody's
    rename_i hgone
    rw [if_pos hgone]
    simp only [Directory.enter, Function.update_apply] at hentry ⊢
    split at hentry
    · obtain ⟨-, rfl⟩ := Prod.mk.inj (Option.some.inj hentry)
      exact absurd hgone hlive
    · exact h v c' (reached_iff.mpr ⟨hlive, npid, hentry⟩)
  · rename_i hgone
    rw [if_neg hgone]
    simp only [Directory.login, Directory.enter, Function.update_apply] at hentry ⊢
    split at hentry
    · rename_i hvu
      obtain ⟨-, rfl⟩ := Prod.mk.inj (Option.some.inj hentry)
      exact ⟨req.npid, by rw [if_pos rfl, hvu]⟩
    · -- nobody had this connection before
      have hold : s.Reached v c' := reached_iff.mpr ⟨hlive, npid, hentry⟩
      have hne : c' ≠ c := by
        rintro rfl
        exact h.unreached hc honce v hold
      rw [if_neg hne]
      exact h v c' hold

/-- After a disconnect the others keep their connections. -/
theorem disconnect_owned (h : s.Owned) : (s.step sv (.disconnect c env)).Owned := by
  simp only [Server.step]
  cases hc : s.live c with
  | none => exact h
  | some session =>
    intro v c' hv
    obtain ⟨hlive, entry, he, hsend⟩ := hv
    have hne : c' ≠ c := fun heq => hlive (heq ▸ List.mem_cons_self)
    have hlive' : c' ∉ s.gone := fun hgone => hlive (List.mem_cons_of_mem _ hgone)
    have hold : s.shared.clients.get? v = some entry := by
      simp only [cleanup_clients] at he
      split at he
      · exact (Table.of_get?_del he).2
      · exact he
    rw [holds_disconnect, if_neg hne]
    exact h v c' ⟨hlive', entry, hold, hsend⟩

/-- **Connections keep to one client**, as long as none logs in a second time and no account goes. -/
theorem step_owned (h : s.Owned) (hfresh : s.Fresh) (he : e.KeepsAccounts) (honce : s.LoginsOnce e) :
    (s.step sv e).Owned := by
  cases e with
  | connect => exact h.of_same (connect_directory hfresh) rfl
  | disconnect c env => exact disconnect_owned h
  | request c cmd env =>
    cases hc : s.conns.get? c with
    | none =>
      simp only [Server.step, hc]
      exact h
    | some session =>
      have hquiet : Quiet ⟨s.db, s.shared, session⟩
          (dispatchCommand sv env c ⟨s.db, s.shared, session⟩ cmd) →
          (s.step sv (.request c cmd env)).Owned := by
        intro hq
        simp only [Server.step, hc]
        exact h.of_same (quiet_directory hc hq) rfl
      cases cmd with
      | login req =>
        cases req with
        | none => exact hquiet (dispatch_quiet rfl)
        | some req =>
          by_cases hacc : ∃ user, Accepted sv ⟨s.db, s.shared, session⟩ req user
          · obtain ⟨user, hacc⟩ := hacc
            exact login_owned h hc hacc honce
          · rw [dispatch_login] at hquiet
            exact hquiet (cmdLogin_quiet (not_exists.mp hacc))
      | delete req => exact absurd rfl (he.1 req)
      | _ => exact hquiet (dispatch_quiet rfl)

/-! ## Accounts and their names -/

theorem getUsername_of_mem (h : db.IdsOk) {a : UserRecord} (ha : a ∈ db.accounts) :
    getUsername db a.userId = some a.username := by
  unfold getUsername
  cases hb : db.accounts.find? fun b => b.userId = a.userId with
  | none => simpa using List.find?_eq_none.mp hb a ha
  | some b =>
    have hid := List.find?_some hb
    rw [Option.map_some, h.unique b (List.mem_of_find?_eq_some hb) a ha (of_decide_eq_true hid)]

/-- A command that deletes no account leaves the accounts alone, or registers one. -/
theorem dispatch_registers (sv : Services) (env : Env) (c : ConnId) (cs : CommandState) {cmd : Command}
    (hdelete : ∀ req, cmd ≠ .delete req) :
    let db := (dispatchCommand sv env c cs cmd).1.db
    (∃ friendship, db = { cs.db with friendship }) ∨ ∃ npid password avatarUrl email,
      db = (createAccount sv env.account cs.db npid password avatarUrl email).1 := by
  have hcreate : ∀ req, (∃ friendship, (cmdCreate sv env cs req).1.db = { cs.db with friendship }) ∨
      ∃ npid password avatarUrl email, (cmdCreate sv env cs req).1.db =
        (createAccount sv env.account cs.db npid password avatarUrl email).1 := by
    intro req
    rcases cmdCreate_cases sv env cs req with ⟨err, herr⟩ | ⟨r, avatarUrl, err, -, -, herr⟩
    · rw [herr]
      exact Or.inl ⟨_, rfl⟩
    · rw [herr]
      exact Or.inr ⟨_, _, _, _, rfl⟩
  have hlogin : ∀ req, (cmdLogin sv env c cs req).1.db = cs.db := by
    intro req
    unfold cmdLogin
    split <;> rfl
  intro db
  simp only [db]
  unfold dispatchCommand
  split
  · cases cmd with
    | login req => exact Or.inl ⟨_, hlogin req⟩
    | create req => exact hcreate req
    | delete req => exact absurd rfl (hdelete req)
    | setAppearOffline req => cases req <;> exact Or.inl ⟨_, rfl⟩
    | contextStart ctxId => cases ctxId <;> exact Or.inl ⟨_, rfl⟩
    | contextStop decoded => cases decoded <;> exact Or.inl ⟨_, rfl⟩
    | score comId => cases comId <;> exact Or.inl ⟨_, rfl⟩
    | _ => exact Or.inl ⟨_, rfl⟩
  · cases cmd with
    | login req => exact Or.inl ⟨_, hlogin req⟩
    | create req => exact hcreate req
    | _ => exact Or.inl ⟨_, rfl⟩

/-- Names stay as long as no account is deleted. -/
theorem dispatch_getUsername {cmd : Command} (hdelete : ∀ req, cmd ≠ .delete req)
    (h : getUsername cs.db o = some npid) :
    getUsername (dispatchCommand sv env c cs cmd).1.db o = some npid := by
  rcases dispatch_registers sv env c cs hdelete with ⟨friendship, hdb⟩ | ⟨n, p, a, m, hdb⟩
  · rw [hdb]
    exact h
  · rw [hdb]
    exact createAccount_getUsername sv env.account n p a m h

/-- A session has the npid of its account after every command. -/
theorem dispatch_spelled {cmd : Command} (hids : cs.db.IdsOk) (hdelete : ∀ req, cmd ≠ .delete req)
    (h : ∀ u npid, cs.session.account = some (u, npid) → getUsername cs.db u = some npid)
    (hacc : (dispatchCommand sv env c cs cmd).1.session.account = some (u, npid)) :
    getUsername (dispatchCommand sv env c cs cmd).1.db u = some npid := by
  have hquiet : Quiet cs (dispatchCommand sv env c cs cmd) →
      getUsername (dispatchCommand sv env c cs cmd).1.db u = some npid := fun hq =>
    dispatch_getUsername hdelete (h u npid (hq.account.symm.trans hacc))
  cases cmd with
  | login req =>
    cases req with
    | none => exact hquiet (dispatch_quiet rfl)
    | some req =>
      by_cases haccepted : ∃ user, Accepted sv cs req user
      · obtain ⟨user, haccepted⟩ := haccepted
        rw [dispatch_login, cmdLogin, haccepted.loginCheck] at hacc ⊢
        obtain ⟨rfl, rfl⟩ := Prod.mk.inj (Option.some.inj hacc)
        exact getUsername_of_mem hids (checkUser_found haccepted.check).1
      · rw [dispatch_login] at hquiet ⊢
        exact hquiet (cmdLogin_quiet (not_exists.mp haccepted))
  | delete req => exact absurd rfl (hdelete req)
  | _ => exact hquiet (dispatch_quiet rfl)

/-- The invariant holds of a server without connections. -/
theorem ListsInv.start (hdb : db.Schema) (hids : db.IdsOk) (hnames : db.UniqueNames) :
    ListsInv { db } := by
  refine ⟨⟨hdb, fun c session hc => ?_, fun uid fs hfs => ?_⟩, hids, hnames, fun c session u npid hc => ?_,
    fun v c hv => ?_, fun c _ => rfl⟩
  · cases hc
  · cases hfs
  · cases hc
  · obtain ⟨-, entry, he, -⟩ := hv
    cases he

/-- **Every event** keeps the invariant. -/
theorem step_listsInv (h : ListsInv s) (he : e.KeepsAccounts) (honce : s.LoginsOnce e) :
    ListsInv (s.step sv e) := by
  have hfriends : FriendsInv (s.step sv e) := step_friendsInv h.friends he
  have howned : (s.step sv e).Owned := step_owned h.owned h.fresh he honce
  have hfresh : (s.step sv e).Fresh := step_fresh h.fresh e
  cases e with
  | connect =>
    refine ⟨hfriends, h.ids, h.names, fun c session u npid hc hacc => ?_, howned, hfresh⟩
    rcases Table.of_get?_set hc with ⟨-, rfl⟩ | ⟨-, hold⟩
    · cases hacc
    · exact h.spelled c session u npid hold hacc
  | disconnect c env =>
    have hdb : (s.step sv (.disconnect c env)).db = s.db := by
      simp only [Server.step]
      split <;> rfl
    refine ⟨hfriends, ?_, ?_, fun c' after u npid hafter hacc => ?_, howned, hfresh⟩
    · rw [hdb]
      exact h.ids
    · rw [hdb]
      exact h.names
    · obtain ⟨session, hold, hinfo, hauth⟩ := Server.of_disconnect_get? hafter
      rw [hdb]
      refine h.spelled c' session u npid hold ?_
      rwa [ClientSession.account, hinfo, hauth] at hacc
  | request c cmd env =>
    cases hc : s.conns.get? c with
    | none =>
      simp only [Server.step, hc]
      exact h
    | some session =>
      have hspelled := fun u npid => h.spelled c session u npid hc
      simp only [Server.step, hc] at hfriends howned hfresh ⊢
      refine ⟨hfriends, ?_, ?_, fun c' session' u npid hc' hacc => ?_, howned, hfresh⟩
      · rcases dispatch_registers sv env c ⟨s.db, s.shared, session⟩ he.1 with
          ⟨friendship, hdb⟩ | ⟨n, p, a, m, hdb⟩
        · rw [hdb]
          exact ⟨h.ids.unique, h.ids.given⟩
        · rw [hdb]
          exact createAccount_ids h.ids sv env.account n p a m
      · rcases dispatch_registers sv env c ⟨s.db, s.shared, session⟩ he.1 with
          ⟨friendship, hdb⟩ | ⟨n, p, a, m, hdb⟩
        · rw [hdb]
          exact h.names
        · rw [hdb]
          exact createAccount_uniqueNames h.names sv env.account n p a m
      · rcases Table.of_get?_set hc' with ⟨-, rfl⟩ | ⟨-, hold⟩
        · exact dispatch_spelled h.ids he.1 hspelled hacc
        · exact dispatch_getUsername he.1 (h.spelled c' session' u npid hold hacc)

/-! ## Hearing -/

/-- What a client knows of an npid after an event, from what it knew. -/
def hears (sv : Services) (s : Server) (e : Event) (c : ConnId) (npid : String) (old : Option Bool) :
    Option Bool :=
  (saidOf npid (told c (s.sent sv e))).foldl (fun old u => u.apply old) old

/-- **Keeping right**: what is told makes the old flags the new ones. -/
theorem hear_iff (h : Mirrors (w.lists c) (w.server.friendFlag v))
    (hgiven : w.server.listGiven sv e c = none) :
    Mirrors ((w.step sv e).lists c) ((w.server.step sv e).friendFlag v) ↔ ∀ npid,
      hears sv w.server e c npid (w.server.friendFlag v npid) = (w.server.step sv e).friendFlag v npid := by
  simp only [FriendLists.step, hgiven, Option.getD_none]
  exact h.hear_iff _

/-- What is said of an npid on a connection was sent there. -/
theorem mem_said {sent : List Sent} {upd : Update Bool} : upd ∈ saidOf npid (told c sent) ↔
    ∃ m ∈ sent, m.conn = c ∧ m.notification.message? = some ⟨npid, upd⟩ := by
  unfold saidOf told
  constructor
  · intro h
    obtain ⟨message, hmessage, rfl⟩ := List.mem_map.mp h
    obtain ⟨hmem, hkey⟩ := List.mem_filter.mp hmessage
    obtain ⟨m, hm, hsome⟩ := List.mem_filterMap.mp hmem
    obtain ⟨hsent, hconn⟩ := List.mem_filter.mp hm
    refine ⟨m, hsent, by simpa using hconn, ?_⟩
    rw [hsome, ← (by simpa using hkey : message.key = npid)]
  · rintro ⟨m, hsent, hconn, hsome⟩
    refine List.mem_map.mpr ⟨⟨npid, upd⟩, List.mem_filter.mpr ⟨?_, by simp⟩, rfl⟩
    exact List.mem_filterMap.mpr ⟨m, List.mem_filter.mpr ⟨hsent, by simpa using hconn⟩, hsome⟩

/-- Where nothing new is said, nothing new is known. -/
theorem hears_fixed {old : Option Bool} (h : ∀ m ∈ s.sent sv e, ∀ message,
    m.notification.message? = some message → m.conn = c → message.key = npid →
      message.update.apply old = old) : hears sv s e c npid old = old := by
  refine foldl_apply_fixed fun upd hupd => ?_
  obtain ⟨m, hm, hconn, hsome⟩ := mem_said.mp hupd
  exact h m hm _ hsome hconn rfl

/-- Of whom nothing is said, nothing new is known. -/
theorem hears_none {old : Option Bool} (h : ∀ m ∈ s.sent sv e, ∀ message,
    m.notification.message? = some message → m.conn = c → message.key ≠ npid) :
    hears sv s e c npid old = old :=
  hears_fixed fun m hm message hsome hconn hkey => absurd hkey (h m hm message hsome hconn)

/-- Of one that one thing is said of, that is known. -/
theorem hears_same {old : Option Bool} {upd : Update Bool}
    (h : ∀ m ∈ s.sent sv e, ∀ message, m.notification.message? = some message → m.conn = c →
      message.key = npid → message.update = upd)
    (hsent : ∃ m ∈ s.sent sv e, m.conn = c ∧ m.notification.message? = some ⟨npid, upd⟩) :
    hears sv s e c npid old = upd.apply old := by
  refine foldl_apply_same (fun upd' hupd => ?_) (List.ne_nil_of_mem (mem_said.mpr hsent)) old
  obtain ⟨m, hm, hconn, hsome⟩ := mem_said.mp hupd
  exact h m hm _ hsome hconn rfl

/-! ## Events without news -/

/-- An event that changes nothing that is in lists, and tells nobody anything. -/
structure Silent (sv : Services) (s : Server) (e : Event) : Prop where
  reached : ∀ v c, (s.step sv e).Reached v c → s.Reached v c
  flag : ∀ v npid, (s.step sv e).friendFlag v npid = s.friendFlag v npid
  sent : ∀ m ∈ s.sent sv e, m.notification.message? = none
  given : ∀ c, s.listGiven sv e c = none

/-- Such an event leaves all lists right. -/
theorem Silent.upToDate (h : Silent sv w.server e) (hw : w.UpToDate) : (w.step sv e).UpToDate := by
  intro v c hv
  refine (hear_iff (hw v c (h.reached v c hv)) (h.given c)).mpr fun npid => ?_
  rw [hears_none, h.flag]
  intro m hm message hsome
  rw [h.sent m hm] at hsome
  cases hsome

/-- The same accounts, friendships and users online have the same flags. -/
theorem friendFlag_congr {s' : Server} (haccounts : s'.db.accounts = s.db.accounts)
    (hfriendship : s'.db.friendship = s.db.friendship)
    (happears : appears s'.shared.clients = appears s.shared.clients) (v : ℤ) (npid : String) :
    s'.friendFlag v npid = s.friendFlag v npid := by
  unfold Server.friendFlag Database.named
  rw [haccounts, hfriendship]
  exact congrArg _ (funext fun o => friendState_congr rfl (shown_congr (congrFun happears o)))

theorem reached_congr {s' : Server} (hentry : s'.shared.entry = s.shared.entry) (hgone : s'.gone = s.gone) :
    s'.Reached v c ↔ s.Reached v c := by
  have hd : s'.directory.entry = s.directory.entry := hentry
  rw [reached_iff, reached_iff, hgone, hd]

theorem connect_silent : Silent sv s .connect :=
  ⟨fun _ _ hv => hv, fun _ _ => rfl, fun _ hm => absurd hm List.not_mem_nil, fun _ => rfl⟩

/-- A request that changes nothing tells nobody anything new. -/
theorem silent_of_same {cmd : Command} (hc : s.conns.get? c = some session)
    (hsame : (dispatchCommand sv env c ⟨s.db, s.shared, session⟩ cmd).1 = ⟨s.db, s.shared, session⟩)
    (hsent : ∀ m ∈ s.sent sv (.request c cmd env), m.notification.message? = none)
    (hgiven : ∀ c', s.listGiven sv (.request c cmd env) c' = none) :
    Silent sv s (.request c cmd env) := by
  refine ⟨fun v c' hv => ?_, fun v npid => ?_, hsent, hgiven⟩
  · simp only [Server.step, hc, hsame] at hv
    exact hv
  · simp only [Server.step, hc, hsame]
    exact friendFlag_congr rfl rfl rfl v npid

/-- The commands that lists depend on, besides logins. -/
def Command.isNews : Command → Bool
  | .friend .. => true
  | .setAppearOffline (some _) => true
  | .delete _ => true
  | _ => false

/-- Without a login only two commands do anything. -/
theorem dispatch_refused {cmd : Command} (hauth : ¬ cs.session.authenticated = true)
    (hlogin : ∀ req, cmd ≠ .login req) (hcreate : ∀ req, cmd ≠ .create req) :
    (dispatchCommand sv env c cs cmd).1 = cs := by
  unfold dispatchCommand
  rw [if_neg hauth]
  cases cmd with
  | login req => exact absurd rfl (hlogin req)
  | create req => exact absurd rfl (hcreate req)
  | _ => rfl

theorem dispatch_create (req : Option RegistrationRequest) :
    dispatchCommand sv env c cs (.create req) = cmdCreate sv env cs req := by
  unfold dispatchCommand
  split <;> rfl

/-- A command that is no news to friends leaves friendships alone, and who appears online. -/
theorem dispatch_noNews {cmd : Command} (hnews : cmd.isNews = false) (hlogin : ∀ req, cmd ≠ .login req) :
    let r := (dispatchCommand sv env c cs cmd).1
    r.db.friendship = cs.db.friendship ∧ appears r.shared.clients = appears cs.shared.clients := by
  intro r
  simp only [r]
  by_cases hcreate : ∃ req, cmd = .create req
  · obtain ⟨req, rfl⟩ := hcreate
    rw [dispatch_create]
    refine ⟨(cmdCreate_noFriends req).friendship, ?_⟩
    rcases cmdCreate_cases sv env cs req with ⟨err, herr⟩ | ⟨_, _, err, -, -, herr⟩ <;> rw [herr]
  by_cases hauth : cs.session.authenticated = true
  · unfold dispatchCommand
    rw [if_pos hauth]
    cases cmd with
    | login req => exact absurd rfl (hlogin req)
    | create req => exact absurd ⟨req, rfl⟩ hcreate
    | delete req => cases hnews
    | friend command npid => cases hnews
    | setAppearOffline req =>
      cases req with
      | none => exact ⟨rfl, rfl⟩
      | some enable => cases hnews
    | contextStart ctxId =>
      cases ctxId with
      | none => exact ⟨rfl, rfl⟩
      | some ctxId => exact ⟨rfl, appears_modify fun _ => rfl⟩
    | contextStop decoded =>
      cases decoded with
      | false => exact ⟨rfl, rfl⟩
      | true => exact ⟨rfl, appears_modify fun _ => rfl⟩
    | score comId =>
      cases comId with
      | none => exact ⟨rfl, rfl⟩
      | some comId => exact ⟨rfl, congrArg appears (usageTouchGame_clients ..)⟩
    | _ => exact ⟨rfl, rfl⟩
  · rw [dispatch_refused hauth hlogin (not_exists.mp hcreate)]
    exact ⟨rfl, rfl⟩

theorem toFriends_silent {sh : SharedState} {userId : ℤ} {p : ℤ → Bool}
    {n : ClientEntry → List Notification} (h : ∀ fe, ∀ k ∈ n fe, k.message? = none) {m : Sent}
    (hm : m ∈ toFriends sh userId p n) : m.notification.message? = none := by
  obtain ⟨-, fe, hn⟩ := mem_toFriends hm
  exact h fe _ hn

/-- The switch tells friends to look again, not what they would see. -/
theorem setAppearOfflineSent_silent {sh : SharedState} {info : ClientInfo} {enable : Bool} {m : Sent}
    (hm : m ∈ setAppearOfflineSent sh info enable) : m.notification.message? = none := by
  unfold setAppearOfflineSent at hm
  split at hm
  · cases hm
  · split at hm
    · cases hm
    · rcases List.mem_append.mp hm with hstatus | hgame
      · refine toFriends_silent (fun fe k hk => ?_) hstatus
        rw [List.mem_singleton.mp hk]
        rfl
      · refine toFriends_silent (fun fe k hk => ?_) hgame
        simp only [List.mem_append, List.mem_ite_nil_right, List.mem_singleton] at hk
        rcases hk with (⟨-, hk⟩ | ⟨-, hk⟩) | ⟨-, hk⟩ <;> rw [hk] <;> rfl

theorem emitPresenceGameTitleInfo_silent {sh : SharedState} {info : ClientInfo} {m : Sent}
    (hm : m ∈ emitPresenceGameTitleInfo sh info) : m.notification.message? = none := by
  unfold emitPresenceGameTitleInfo at hm
  split at hm
  · cases hm
  · split at hm
    · cases hm
    · refine toFriends_silent (fun fe k hk => ?_) hm
      rw [List.mem_singleton.mp hk]
      rfl

/-- The other commands tell nothing of friends. -/
theorem commandSent_silent {cmd : Command} (hnews : cmd.isNews = false)
    (hlogin : ∀ req, cmd ≠ .login req) {m : Sent} (hm : m ∈ commandSent sv env c cs cmd) :
    m.notification.message? = none := by
  unfold commandSent at hm
  cases cmd with
  | login req => exact absurd rfl (hlogin req)
  | friend command npid => cases hnews
  | setAppearOffline req =>
    cases req with
    | none => cases hm
    | some enable => cases hnews
  | score comId =>
    cases comId with
    | none => cases hm
    | some comId =>
      simp only at hm
      split at hm
      · exact emitPresenceGameTitleInfo_silent hm
      · cases hm
  | _ => cases hm

/-- **Requests that say nothing of friends.** -/
theorem request_silent {cmd : Command} (h : ListsInv s) (hc : s.conns.get? c = some session)
    (hnews : cmd.isNews = false) (hlogin : ∀ req, cmd ≠ .login req) :
    Silent sv s (.request c cmd env) := by
  have hdelete : ∀ req, cmd ≠ .delete req := by
    rintro req rfl
    cases hnews
  have hquiet : (dispatchCommand sv env c ⟨s.db, s.shared, session⟩ cmd).1.shared.entry =
      s.shared.entry := by
    have hq : Quiet ⟨s.db, s.shared, session⟩
        (dispatchCommand sv env c ⟨s.db, s.shared, session⟩ cmd) := by
      refine dispatch_quiet ?_
      cases cmd with
      | login req => exact absurd rfl (hlogin req)
      | delete req => cases hnews
      | _ => rfl
    exact hq.online.entry
  obtain ⟨hfriendship, happears⟩ : (dispatchCommand sv env c ⟨s.db, s.shared, session⟩ cmd).1.db.friendship =
      s.db.friendship ∧ appears (dispatchCommand sv env c ⟨s.db, s.shared, session⟩ cmd).1.shared.clients =
        appears s.shared.clients := dispatch_noNews hnews hlogin
  refine ⟨fun v c' hv => ?_, fun v npid => ?_, fun m hm => ?_, fun c' => ?_⟩
  · have hsame : (s.step sv (.request c cmd env)).Reached v c' ↔ s.Reached v c' := by
      refine reached_congr ?_ ?_ <;> simp only [Server.step, hc]
      exact hquiet
    exact hsame.mp hv
  · simp only [Server.step, hc]
    rcases dispatch_registers sv env c ⟨s.db, s.shared, session⟩ hdelete with
      ⟨friendship, hdb⟩ | ⟨n, p, a, m, hdb⟩
    · have haccounts : (dispatchCommand sv env c ⟨s.db, s.shared, session⟩ cmd).1.db.accounts =
          s.db.accounts := by rw [hdb]
      exact friendFlag_congr haccounts hfriendship happears v npid
    · exact friendFlag_create h.friends.schema h.ids env.account n p a m hdb happears v npid
  · simp only [Server.sent, hc] at hm
    exact commandSent_silent hnews hlogin hm
  · unfold Server.listGiven
    cases cmd with
    | login req => exact absurd rfl (hlogin req)
    | _ => rfl

/-- Without a connection there is no request. -/
theorem request_silent_none {cmd : Command} (hc : s.conns.get? c = none) :
    Silent sv s (.request c cmd env) := by
  have hstep : s.step sv (.request c cmd env) = s := by simp only [Server.step, hc]
  refine ⟨fun v c' hv => hstep ▸ hv, fun v npid => by rw [hstep], fun m hm => ?_, fun c' => ?_⟩
  · simp [Server.sent, hc] at hm
  · unfold Server.listGiven
    cases cmd <;> simp [hc]

/-- A login that is refused gives nothing. -/
theorem login_silent {req : Option LoginRequest} {err : ErrorType}
    (hc : s.conns.get? c = some session)
    (hcheck : loginCheck sv env ⟨s.db, s.shared, session⟩ req = .error err) :
    Silent sv s (.request c (.login req) env) := by
  refine silent_of_same hc ?_ (fun m hm => ?_) fun c' => ?_
  · rw [dispatch_login]
    unfold cmdLogin
    rw [hcheck]
  · simp [Server.sent, hc, commandSent, hcheck] at hm
  · simp [Server.listGiven, hc, hcheck]

/-- Before a login there are no friends. -/
theorem refused_silent {cmd : Command} (hc : s.conns.get? c = some session)
    (hauth : ¬ session.authenticated = true) (hlogin : ∀ req, cmd ≠ .login req)
    (hcreate : ∀ req, cmd ≠ .create req) : Silent sv s (.request c cmd env) := by
  refine silent_of_same hc (dispatch_refused hauth hlogin hcreate) (fun m hm => ?_) fun c' => ?_
  · simp only [Server.sent, hc] at hm
    unfold commandSent at hm
    cases cmd with
    | login req => exact absurd rfl (hlogin req)
    | friend command npid => simp [hauth] at hm
    | setAppearOffline req => cases req <;> simp [hauth] at hm
    | score comId => cases comId <;> simp [hauth] at hm
    | _ => cases hm
  · unfold Server.listGiven
    cases cmd with
    | login req => exact absurd rfl (hlogin req)
    | _ => rfl

end ShadNet
