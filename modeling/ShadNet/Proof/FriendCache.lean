import ShadNet.Proof.Online
import ShadNet.Proof.Relationship

/-!
# Friendships along a run

* `dispatch_friends`: what a command does to friendships and to the friends that `clients` keeps.
* `relationships_ok`: rows and lists of every reachable database.
* `friends_cached`: the friends in `clients` are those of the table, as long as no account is
  deleted and every database call succeeds.
-/

namespace ShadNet

open Lib FriendStatus

/-! ## The friends in `clients` -/

variable {clients : Table ℤ ClientEntry} {t : Friendship} {u o : ℤ}

/-- The friends that are kept for each account online. -/
def cachedFriends (clients : Table ℤ ClientEntry) (uid : ℤ) : Option (Set ℤ) :=
  (clients.get? uid).map fun e => {v | v ∈ e.friends.keys}

/-- The cached friends of every user online are the accepted friends of the table. -/
def CacheOk (clients : Table ℤ ClientEntry) (t : Friendship) : Prop :=
  ∀ uid, ∀ s ∈ cachedFriends clients uid, s = {v | BothFriends t uid v}

theorem cachedFriends_modify {f : ClientEntry → ClientEntry} {g : Set ℤ → Set ℤ}
    (hf : ∀ e, {v | v ∈ (f e).friends.keys} = g {v | v ∈ e.friends.keys}) (uid : ℤ) :
    cachedFriends (clients.modify u f) uid =
      (cachedFriends clients uid).map (if uid = u then g else id) := by
  unfold cachedFriends
  rw [Table.get?_modify]
  by_cases h : uid = u
  · subst h
    rw [if_pos rfl, if_pos rfl, Option.map_map, Option.map_map]
    exact congrArg (Option.map · _) (funext hf)
  · rw [if_neg h, if_neg h, Option.map_id_fun, id]

/-- Puts a friend into a set, or takes him out. -/
def keepFriend (present : Bool) (o : ℤ) (s : Set ℤ) : Set ℤ := if present then insert o s else s \ {o}

/-- One friend is kept or not, the others stay. -/
theorem mem_keepFriend {present : Bool} {v : ℤ} {s : Set ℤ} :
    v ∈ keepFriend present o s ↔ if v = o then present = true else v ∈ s := by
  cases present <;> by_cases hv : v = o <;> simp [keepFriend, hv]

/-- The friend is in the entry of the user, and nobody else's has changed. -/
theorem cachedFriends_add (npid : String) (uid : ℤ) :
    cachedFriends (addOnlineFriend clients u o npid) uid =
      (cachedFriends clients uid).map (if uid = u then keepFriend true o else id) := by
  refine cachedFriends_modify (fun e => ?_) uid
  ext v
  exact Table.mem_keys_set

/-- The friend is out of the entry of the user, and nobody else's has changed. -/
theorem cachedFriends_remove (uid : ℤ) :
    cachedFriends (removeOnlineFriend clients u o) uid =
      (cachedFriends clients uid).map (if uid = u then keepFriend false o else id) := by
  refine cachedFriends_modify (fun e => ?_) uid
  ext v
  exact Table.mem_keys_del.trans and_comm

/-- The friendship of a row, by its bits. -/
def RelStatus.areFriends (rel : RelStatus) : Bool := has rel.caller friend && has rel.other friend

/-- Two users are friends as the table has it, or as a command reads it. -/
theorem bothFriends_iff_areFriends {a b : ℤ} : BothFriends t a b ↔ (relStatus t a b).areFriends = true := by
  rw [bothFriends_iff, RelStatus.areFriends, Bool.and_eq_true]

/-- After a write a pair is befriended when it is the pair of the row and that says so, or as
before. -/
theorem bothFriends_putRel {rel : RelStatus} (hne : u ≠ o) {a b : ℤ} :
    BothFriends (putRel t u o rel) a b ↔
      if rowIds a b = rowIds u o then rel.areFriends = true else BothFriends t a b := by
  split
  · rename_i hids
    have hsame : BothFriends (putRel t u o rel) a b ↔ BothFriends (putRel t u o rel) u o := by
      unfold BothFriends
      rw [show (min a b, max a b) = (min u o, max u o) from hids]
    rw [hsame, bothFriends_iff_areFriends, relStatus_putRel rel hne]
  · rename_i hids
    rw [bothFriends_iff_areFriends, relStatus_putRel_ne hids, bothFriends_iff_areFriends]

/-- A row that leaves two users as they are to each other changes no entry. -/
theorem CacheOk.keep (h : CacheOk clients t) {rel : RelStatus} (hne : u ≠ o)
    (hrel : rel.areFriends = (relStatus t u o).areFriends) : CacheOk clients (putRel t u o rel) := by
  intro uid s hs
  rw [h uid s hs]
  ext v
  rw [Set.mem_ofPred_eq, Set.mem_ofPred_eq, bothFriends_putRel hne]
  split
  · rename_i hids
    rw [hrel, ← bothFriends_iff_areFriends]
    unfold BothFriends
    rw [show (min uid v, max uid v) = (min u o, max u o) from hids]
  · rfl

/-- A change on both sides, to what the row then says. -/
theorem CacheOk.both (h : CacheOk clients t) {rel : RelStatus} (hne : u ≠ o) {present : Bool}
    (hrel : rel.areFriends = present) {first second : Table ℤ ClientEntry}
    (hfirst : ∀ uid, cachedFriends first uid =
      (cachedFriends clients uid).map (if uid = u then keepFriend present o else id))
    (hsecond : ∀ uid, cachedFriends second uid =
      (cachedFriends first uid).map (if uid = o then keepFriend present u else id)) :
    CacheOk second (putRel t u o rel) := by
  intro uid s hs
  rw [hsecond, hfirst, Option.map_map] at hs
  obtain ⟨s0, h0, rfl⟩ := Option.mem_map.mp hs
  have hs0 := h uid s0 h0
  ext v
  rw [Set.mem_ofPred_eq, bothFriends_putRel hne, hrel, Function.comp_apply]
  -- he is one of the two accounts, or neither
  by_cases hu : uid = u
  · have hrow : rowIds uid v = rowIds u o ↔ v = o := by
      rw [rowIds_eq_iff]
      omega
    rw [if_neg (by omega), if_pos hu, id, mem_keepFriend, hs0]
    simp only [hrow, Set.mem_ofPred_eq]
  · by_cases ho : uid = o
    · have hrow : rowIds uid v = rowIds u o ↔ v = u := by
        rw [rowIds_eq_iff]
        omega
      rw [if_pos ho, if_neg hu, id, mem_keepFriend, hs0]
      simp only [hrow, Set.mem_ofPred_eq]
    · have hrow : ¬rowIds uid v = rowIds u o := by
        rw [rowIds_eq_iff]
        omega
      rw [if_neg ho, if_neg hu, if_neg hrow, hs0]
      rfl

/-- A friendship is entered on both sides. -/
theorem CacheOk.addBoth (h : CacheOk clients t) {rel : RelStatus} (hne : u ≠ o)
    (hrel : rel.areFriends = true) (n n' : String) :
    CacheOk (addOnlineFriend (addOnlineFriend clients u o n) o u n') (putRel t u o rel) :=
  h.both hne hrel (cachedFriends_add n) (cachedFriends_add n')

/-- Taking two users out of each other's cache is right if their row says that they are not friends.
-/
theorem CacheOk.removeBoth (h : CacheOk clients t) {rel : RelStatus} (hne : u ≠ o)
    (hrel : rel.areFriends = false) :
    CacheOk (removeOnlineFriend (removeOnlineFriend clients u o) o u) (putRel t u o rel) :=
  h.both hne hrel cachedFriends_remove cachedFriends_remove

/-- **The two copies of a friendship change together.** -/
theorem CacheOk.update (h : CacheOk clients t) {info : ClientInfo} {k : FriendCommandType}
    (hne : info.userId ≠ o) (hacc : k.accepts (relStatus t info.userId o) = true) (npid : String) :
    CacheOk (updateOnlineFriends clients info k npid (getRelStatus t info.userId o true)
        (k.decision o (.ok (relStatus t info.userId o))))
      (putRel t info.userId o (k.written (relStatus t info.userId o))) := by
  generalize hr : relStatus t info.userId o = rel at hacc
  rw [decision_of_accepts hacc]
  cases k with
  | addFriend =>
    simp only [updateOnlineFriends, FriendCommandType.written]
    split
    · rename_i hother
      refine h.addBoth hne ?_ _ _
      rw [RelStatus.areFriends, hother, has_or_self (by decide)]
      rfl
    · rename_i hother
      refine h.keep hne ?_
      simp [RelStatus.areFriends, hr, hother]
  | removeFriend =>
    have hwritten : (FriendCommandType.written .removeFriend rel).areFriends = false := by
      simp [RelStatus.areFriends, FriendCommandType.written, has_clear_self]
    simp only [setOrDelete]
    split <;> exact h.removeBoth hne hwritten
  | addBlock =>
    have hwritten : (FriendCommandType.written .addBlock rel).areFriends = false := by
      simp [RelStatus.areFriends, FriendCommandType.written, has_clear_self]
    -- a row that is not there is not one of friends
    rcases getRelStatus_cases t info.userId o with hget | ⟨hget, hzero⟩
    · rw [hget, hr]
      simp only [updateOnlineFriends]
      split
      · exact h.removeBoth hne hwritten
      · rename_i hnot
        refine h.keep hne ?_
        rw [hwritten, hr, RelStatus.areFriends, Bool.eq_false_iff.mpr hnot]
    · rw [hget]
      refine h.keep hne ?_
      rw [hwritten, hzero]
      rfl
  | removeBlock =>
    have hwritten : (FriendCommandType.written .removeBlock rel).areFriends = rel.areFriends := by
      simp only [RelStatus.areFriends, FriendCommandType.written]
      rw [has_clear (by decide)]
    simp only [setOrDelete]
    split <;> exact h.keep hne (hr ▸ hwritten)

/-! ## Commands -/

variable {sv : Services} {env : Env} {c : ConnId} {cs : CommandState}

/-- The account is there, so that rows may name it. -/
def Database.Named (db : Database) (uid : ℤ) : Prop := (getUsername db uid).isSome = true

/-- What the schema promises of the table: the smaller id comes first, and both are accounts. -/
structure Database.Schema (db : Database) : Prop where
  ordered : Ordered db.friendship
  named : ∀ ids status, db.friendship.get? ids = some status → db.Named ids.1 ∧ db.Named ids.2

theorem aliceAndBob_schema : aliceAndBob.Schema := by
  constructor <;> intro ids status hrow <;> cases hrow

/-- What a command does that has no part in friendships. -/
structure NoFriends (cs : CommandState) (r : CommandResult) : Prop where
  friendship : r.1.db.friendship = cs.db.friendship
  named : ∀ uid, cs.db.Named uid → r.1.db.Named uid
  cached : cachedFriends r.1.shared.clients = cachedFriends cs.shared.clients
  account : r.1.session.account = cs.session.account

theorem NoFriends.refuse (cs : CommandState) (e : ErrorType) : NoFriends cs (cs, e, none) :=
  ⟨rfl, fun _ h => h, rfl, rfl⟩

/-- A change of other fields leaves the friends. -/
theorem cachedFriends_modify_same {f : ClientEntry → ClientEntry}
    (hf : ∀ e, (f e).friends = e.friends) :
    cachedFriends (clients.modify u f) = cachedFriends clients := by
  funext uid
  rw [cachedFriends_modify (g := id) fun e => by rw [hf]; rfl]
  split <;> rw [Option.map_id_fun, id]

/-- A new account has no friends, and changes nobody else's. -/
theorem createAccount_friends (sv : Services) (aenv : AccountEnv) (db : Database)
    (npid password avatarUrl email : String) :
    let db' := (createAccount sv aenv db npid password avatarUrl email).1
    db'.friendship = db.friendship ∧ ∀ uid, db.Named uid → db'.Named uid := by
  intro db'
  rcases createAccount_cases sv aenv db npid password avatarUrl email with
    heq | ⟨account, -, -, -, -, heq⟩
  · have hsame : db' = db := heq
    rw [hsame]
    exact ⟨rfl, fun _ h => h⟩
  · -- the account that is added stands behind the others
    have hadded : db' = _ := heq
    rw [hadded]
    refine ⟨rfl, fun uid h => ?_⟩
    simp only [Database.Named, getUsername, Option.isSome_map, List.find?_append] at h ⊢
    rw [Option.isSome_or, h, Bool.true_or]

theorem cmdCreate_noFriends (req : Option RegistrationRequest) :
    NoFriends cs (cmdCreate sv env cs req) := by
  rcases cmdCreate_cases sv env cs req with ⟨e, he⟩ | ⟨r, avatarUrl, e, -, -, he⟩
  · rw [he]
    exact .refuse cs e
  · have hcreate := createAccount_friends sv env.account cs.db r.npid r.password avatarUrl r.email
    rw [he]
    exact ⟨hcreate.1, hcreate.2, rfl, rfl⟩

theorem usageTouchGame_clients (sh : SharedState) (userId : ℤ) (comId : String) :
    (usageTouchGame sh userId comId).1.clients = sh.clients := by
  rw [usageTouchGame_frame]

theorem setContext_noFriends (ctxId : ℕ) (initialized : Bool) (e : ErrorType) :
    NoFriends cs (setContext cs ctxId initialized, e, none) :=
  ⟨rfl, fun _ h => h, cachedFriends_modify_same fun _ => rfl, rfl⟩

/-- **What a command does to friendships**: nothing, or it logs in, is a friend command, or
deletes an account. -/
theorem dispatch_friends (sv : Services) (env : Env) (c : ConnId) (cs : CommandState)
    (cmd : Command) :
    let r := dispatchCommand sv env c cs cmd
    NoFriends cs r ∨
    (∃ req session p, loginCheck sv env cs (some req) = .ok (session, p) ∧
      r.1 = { cs with shared := loginRegister cs.shared c p, session := session }) ∨
    (∃ command npid, cmd = .friend command npid ∧ cs.session.authenticated = true ∧
      r = cmdFriend env cs command npid) ∨
    ∃ req, cmd = .delete req ∧ r = cmdDelete sv env cs req := by
  have hlogin : ∀ req, NoFriends cs (cmdLogin sv env c cs req) ∨
      (∃ req' session p, loginCheck sv env cs (some req') = .ok (session, p) ∧
        (cmdLogin sv env c cs req).1 =
          { cs with shared := loginRegister cs.shared c p, session := session }) := by
    intro req
    unfold cmdLogin
    cases hcheck : loginCheck sv env cs req with
    | error e => exact Or.inl (.refuse cs e)
    | ok r =>
      cases req with
      | none => cases hcheck
      | some req => exact Or.inr ⟨req, r.1, r.2, hcheck, rfl⟩
  intro r
  simp only [r, dispatchCommand]
  split
  · rename_i hauth
    cases cmd with
    | login req => exact (hlogin req).imp_right Or.inl
    | create req => exact Or.inl (cmdCreate_noFriends req)
    | delete req => exact Or.inr (Or.inr (Or.inr ⟨req, rfl, rfl⟩))
    | friend command npid => exact Or.inr (Or.inr (Or.inl ⟨command, npid, rfl, hauth, rfl⟩))
    | setAppearOffline req =>
      cases req with
      | none => exact Or.inl (.refuse cs _)
      | some enable =>
        exact Or.inl ⟨rfl, fun _ h => h, cachedFriends_modify_same fun _ => rfl, rfl⟩
    | contextStart ctxId =>
      cases ctxId with
      | none => exact Or.inl (.refuse cs _)
      | some ctxId => exact Or.inl (setContext_noFriends ..)
    | contextStop decoded =>
      cases decoded with
      | false => exact Or.inl (.refuse cs _)
      | true => exact Or.inl (setContext_noFriends ..)
    | score comId =>
      cases comId with
      | none => exact Or.inl (.refuse cs _)
      | some comId =>
        exact Or.inl ⟨rfl, fun _ h => h, congrArg _ (usageTouchGame_clients ..), rfl⟩
    | terminate => exact Or.inl (.refuse cs _)
    | other => exact Or.inl (.refuse cs _)
    | _ => exact Or.inl ⟨rfl, fun _ h => h, rfl, rfl⟩
  · -- nothing else is dispatched before a login
    cases cmd with
    | login req => exact (hlogin req).imp_right Or.inl
    | create req => exact Or.inl (cmdCreate_noFriends req)
    | _ => exact Or.inl (.refuse cs _)

/-! ## The rows along a run -/

/-- Rows that are left are as they were. -/
theorem deleteUser_row {db : Database} {userId : ℤ} {ids : ℤ × ℤ} {status : UInt8 × UInt8}
    (h : (deleteUser db userId).friendship.get? ids = some status) :
    db.friendship.get? ids = some status := by
  simp only [deleteUser] at h
  rw [Table.get?_filterMap] at h
  obtain ⟨status', hrow, hkeep⟩ := Option.bind_eq_some_iff.mp h
  split at hkeep
  · cases hkeep
  · rwa [Option.some.inj hkeep] at hrow

theorem cmdDelete_row {req : Option (String × String)} {ids : ℤ × ℤ} {status : UInt8 × UInt8}
    (h : (cmdDelete sv env cs req).1.db.friendship.get? ids = some status) :
    cs.db.friendship.get? ids = some status := by
  rcases cmdDelete_cases sv env cs req with
    ⟨e, he⟩ | ⟨npid, password, user, -, -, -, -, he⟩ | ⟨userId, -, he⟩
  · rw [he] at h
    exact h
  · rw [he] at h
    exact deleteUser_row h
  · rw [he] at h
    exact deleteUser_row h

/-- **Every command** keeps the rows in order. -/
theorem dispatch_rowsOk (h : RowsOk cs.db.friendship) (cmd : Command) :
    RowsOk (dispatchCommand sv env c cs cmd).1.db.friendship := by
  rcases dispatch_friends sv env c cs cmd with
    hno | ⟨req, session, p, -, hr⟩ | ⟨command, npid, -, -, hr⟩ | ⟨req, -, hr⟩
  · rw [hno.friendship]
    exact h
  · rw [hr]
    exact h
  · rw [hr]
    exact h.apply _
  · rw [hr]
    exact fun ids status hrow => h ids status (cmdDelete_row hrow)

/-- What an event does to the database is what a command does. -/
theorem step_db {P : Database → Prop} {s : Server} {e : Event} (h : P s.db)
    (hcmd : ∀ c cmd env session, s.conns.get? c = some session → e = .request c cmd env →
      P (dispatchCommand sv env c ⟨s.db, s.shared, session⟩ cmd).1.db) :
    P (s.step sv e).db := by
  cases e with
  | connect => exact h
  | request c cmd env =>
    simp only [Server.step]
    cases hc : s.conns.get? c with
    | none => exact h
    | some session => exact hcmd c cmd env session hc rfl
  | disconnect c env =>
    simp only [Server.step]
    cases s.live c <;> exact h

/-- **Along every run** the rows are in order. -/
theorem server_rowsOk (sv : Services) {db : Database} (h : RowsOk db.friendship)
    (events : List Event) (n : ℕ) : RowsOk (serverAfter sv db events n).db.friendship := by
  refine runAt_inv (P := fun s : Server => RowsOk s.db.friendship) h ?_ events n
  intro s e hs
  exact step_db (P := fun db => RowsOk db.friendship) hs fun c cmd env session _ _ =>
    dispatch_rowsOk hs cmd

/-- `v` stands in a list of the user's. -/
def Database.Lists (db : Database) (k : RelList) (u v : ℤ) : Prop :=
  ∃ npid, (v, npid) ∈ (getRelationships db u true).list k

/-- A list names whom the row shows in it, if the account is there. -/
theorem lists_iff {db : Database} (h : Ordered db.friendship) {k : RelList} {u v : ℤ} :
    db.Lists k u v ↔ db.Named v ∧ k.shows (relStatus db.friendship u v) = true := by
  unfold Database.Lists Database.Named
  simp only [mem_getRelationships h]
  rw [exists_and_right, Option.isSome_iff_exists]

/-- What each list shows to one account the matching list shows to the other. -/
def RelList.mirror : RelList → Option RelList
  | .friends => some .friends
  | .sent => some .received
  | .received => some .sent
  | .blocked => none

/-- What one account has in a list, the other has in its mirror. -/
theorem RowsOk.lists_mirror {db : Database} (h : RowsOk db.friendship) {k k' : RelList}
    (hk : k.mirror = some k') {u v : ℤ} (hu : db.Named u) (hv : db.Named v) :
    db.Lists k u v ↔ db.Lists k' v u := by
  rw [lists_iff h.ordered, lists_iff h.ordered, and_iff_right hu, and_iff_right hv]
  by_cases hne : u = v
  · -- there is no row of one account
    have hnone : relStatus db.friendship u u = ⟨0, 0⟩ := by
      rw [relStatus_eq]
      cases hrow : db.friendship.get? (rowIds u u) with
      | none => rfl
      | some status =>
        have hlt := h.ordered _ _ hrow
        simp [rowIds] at hlt
    subst hne
    rw [hnone]
    cases k <;> cases hk <;> simp [RelList.shows, has]
  · rw [relStatus_symm hne]
    cases k <;> cases hk <;> simp [RelList.shows, and_comm]

/-- No account is in two lists of another. -/
theorem RowsOk.lists_unique {db : Database} (h : RowsOk db.friendship) {k k' : RelList} {u v : ℤ}
    (hk : db.Lists k u v) (hk' : db.Lists k' u v) : k = k' := by
  have hex := h.exclusive u v
  obtain ⟨-, hshows⟩ := (lists_iff h.ordered).mp hk
  obtain ⟨-, hshows'⟩ := (lists_iff h.ordered).mp hk'
  -- the first three lists differ in the Friend bits, the last one has a block
  unfold Exclusive at hex
  cases k <;> cases k' <;> simp_all [RelList.shows]

/-- **Relationships are well formed** in every reachable database. Every row has the smaller id
first, some bit, and no friendship with a block; what is set is read back from both sides; the
lists of two accounts match, and no account is in two lists of another. -/
theorem relationships_ok (sv : Services) (accounts : List UserRecord) (lastId : ℕ)
    (events : List Event) (n : ℕ) :
    let db := (serverAfter sv ⟨accounts, lastId, ∅⟩ events n).db
    RowsOk db.friendship ∧
    (∀ a b caller other, a ≠ b →
      let t := (setRelStatus db.friendship a b caller other true).1
      getRelStatus t a b true = .ok ⟨caller, other⟩ ∧
        getRelStatus t b a true = .ok ⟨other, caller⟩) ∧
    (∀ u v, db.Named u → db.Named v →
      (db.Lists .friends u v ↔ db.Lists .friends v u) ∧
      (db.Lists .sent u v ↔ db.Lists .received v u)) ∧
    ∀ u v k k', db.Lists k u v → db.Lists k' u v → k = k' := by
  intro db
  have hempty : RowsOk (∅ : Friendship) := by
    intro ids status hrow
    cases hrow
  have h : RowsOk db.friendship := server_rowsOk sv hempty events n
  refine ⟨h, ?_, ?_, ?_⟩
  · intro a b caller other hne
    exact getRelStatus_setRelStatus db.friendship caller other hne
  · intro u v hu hv
    exact ⟨h.lists_mirror rfl hu hv, h.lists_mirror rfl hu hv⟩
  · intro u v k k' hk hk'
    exact h.lists_unique hk hk'

/-! ## The friends in `clients` along a run -/

/-- No account is deleted, and the database calls succeed. -/
def Event.KeepsAccounts : Event → Prop
  | .request _ cmd env => (∀ req, cmd ≠ .delete req) ∧ env.readOk = true ∧ env.writeOk = true
  | _ => True

/-- What holds between the table and the friends in `clients`, with what this rests on. -/
structure FriendsInv (s : Server) : Prop where
  schema : s.db.Schema
  named : ∀ c session, s.conns.get? c = some session → session.authenticated = true →
    s.db.Named session.info.userId
  cache : CacheOk s.shared.clients s.db.friendship

/-- Whoever logs in has an account. -/
theorem checkUser_named {db : Database} {npid password token : String} {checkToken : Bool}
    {user : UserRecord} (h : checkUser sv db npid password token checkToken = some user) :
    db.Named user.userId := by
  unfold Database.Named getUsername
  rw [Option.isSome_map, List.find?_isSome]
  exact ⟨user, (checkUser_found h).1, by simp⟩

/-- What a login that goes through has read. -/
theorem loginCheck_ok {req : LoginRequest} {session : ClientSession} {p : PendingLogin}
    (h : loginCheck sv env cs (some req) = .ok (session, p)) :
    cs.db.Named p.user.userId ∧ p.rels = getRelationships cs.db p.user.userId env.readOk ∧
      session.info.userId = p.user.userId := by
  unfold loginCheck at h
  simp only at h
  cases huser : checkUser sv cs.db req.npid req.password req.token sv.config.emailValidated with
  | none => simp [huser] at h
  | some user =>
    simp only [huser] at h
    split at h
    · cases h
    split at h
    · cases h
    obtain ⟨rfl, rfl⟩ := Prod.mk.inj (Except.ok.inj h)
    exact ⟨checkUser_named huser, rfl, rfl⟩

/-- The friends that a login tells get the account into their lists. -/
theorem mem_cached_foldl_add {npid : String} (l : List (ℤ × String)) {uid : ℤ} {s : Set ℤ}
    (h : s ∈ cachedFriends (l.foldl (fun t f => addOnlineFriend t f.1 u npid) clients) uid) :
    ∃ s0 ∈ cachedFriends clients uid, ∀ v, v ∈ s ↔ (v = u ∧ ∃ f ∈ l, f.1 = uid) ∨ v ∈ s0 := by
  induction l generalizing clients with
  | nil => exact ⟨s, h, by simp⟩
  | cons f l ih =>
    obtain ⟨s1, h1, hmem⟩ := ih h
    rw [cachedFriends_add] at h1
    obtain ⟨s0, h0, rfl⟩ := Option.mem_map.mp h1
    refine ⟨s0, h0, fun v => ?_⟩
    have hadded : v ∈ (if uid = f.1 then keepFriend true u else id) s0 ↔ (uid = f.1 ∧ v = u) ∨ v ∈ s0 := by
      split <;> simp_all [keepFriend]
    rw [hmem, hadded, List.exists_mem_cons_iff]
    rw [eq_comm (a := uid), and_comm (a := f.1 = uid), and_or_left, or_assoc, or_left_comm]

/-- The friends that `GetRelationships` lists are those of the table. -/
theorem exists_friend_iff {db : Database} (h : db.Schema) {uid v : ℤ} :
    (∃ f ∈ (getRelationships db uid true).friends, f.1 = v) ↔
      BothFriends db.friendship uid v := by
  have hlist : (∃ f ∈ (getRelationships db uid true).friends, f.1 = v) ↔
      db.Lists .friends uid v := by
    constructor
    · rintro ⟨⟨v', npid⟩, hf, rfl⟩
      exact ⟨npid, hf⟩
    · rintro ⟨npid, hf⟩
      exact ⟨(v, npid), hf, rfl⟩
  rw [hlist, lists_iff h.ordered, bothFriends_iff_areFriends]
  refine and_iff_right_of_imp fun hrel => ?_
  -- a row that makes friends of the two names both
  obtain ⟨status, hrow, -⟩ := bothFriends_iff_areFriends.mpr hrel
  have hnamed := h.named _ _ hrow
  rcases le_total uid v with hle | hle
  · rw [max_eq_right hle] at hnamed
    exact hnamed.2
  · rw [min_eq_right hle] at hnamed
    exact hnamed.1

/-- **A login** takes its friends from the table, and those who are online have it already. -/
theorem CacheOk.login {db : Database} {sh : SharedState} {p : PendingLogin}
    (h : CacheOk sh.clients db.friendship) (hdb : db.Schema)
    (hrels : p.rels = getRelationships db p.user.userId true) :
    CacheOk (loginRegister sh c p).clients db.friendship := by
  intro uid s hs
  simp only [loginRegister, usageOnLogin, cachedFriends] at hs
  rw [Table.get?_set] at hs
  ext v
  rw [Set.mem_ofPred_eq]
  split at hs
  · rename_i huid
    subst huid
    obtain rfl := Option.some.inj hs
    rw [Set.mem_ofPred_eq, loginEntry, Table.mem_keys_foldl_set, hrels,
      exists_friend_iff hdb]
    exact or_iff_right (List.not_mem_nil)
  · obtain ⟨s0, h0, hmem⟩ := mem_cached_foldl_add p.rels.friends hs
    rw [hmem, h uid s0 h0, Set.mem_ofPred_eq, hrels, exists_friend_iff hdb]
    refine or_iff_right_of_imp ?_
    rintro ⟨rfl, hfriend⟩
    exact bothFriends_comm.mp hfriend

/-- The schema holds with a row between two accounts. -/
theorem Database.Schema.putRel {db : Database} (h : db.Schema) {rel : RelStatus} (hne : u ≠ o)
    (hu : db.Named u) (ho : db.Named o) :
    ({ db with friendship := putRel db.friendship u o rel } : Database).Schema := by
  have hrow : ∀ ids status, (ShadNet.putRel db.friendship u o rel).get? ids = some status →
      ids = rowIds u o ∨ db.friendship.get? ids = some status := by
    intro ids status hget
    rw [get?_putRel] at hget
    split at hget
    · exact Or.inl ‹_›
    · exact Or.inr hget
  constructor
  · intro ids status hget
    rcases hrow ids status hget with rfl | hold
    · exact min_lt_max.mpr hne
    · exact h.ordered ids status hold
  · intro ids status hget
    rcases hrow ids status hget with rfl | hold
    · rcases le_total u o with hle | hle
      · simp only [rowIds, min_eq_left hle, max_eq_right hle]
        exact ⟨hu, ho⟩
      · simp only [rowIds, min_eq_right hle, max_eq_left hle]
        exact ⟨ho, hu⟩
    · exact h.named ids status hold

/-- A name that is found belongs to an account. -/
theorem getUserId_named {db : Database} {npid : String} (h : getUserId db npid = some o) :
    db.Named o := by
  unfold getUserId Database.findUser at h
  obtain ⟨r, hfind, rfl⟩ := Option.map_eq_some_iff.mp h
  unfold Database.Named getUsername
  rw [Option.isSome_map, List.find?_isSome]
  exact ⟨r, List.mem_of_find?_eq_some hfind, by simp⟩

/-- **A friend command** keeps table and cache together. -/
theorem cmdFriend_cache (cs : CommandState) (command : FriendCommandType) (npid : Option String)
    (hdb : cs.db.Schema) (hme : cs.db.Named cs.session.info.userId)
    (hcache : CacheOk cs.shared.clients cs.db.friendship) (hread : env.readOk = true) :
    let r := (cmdFriend env cs command npid).1
    r.db.Schema ∧ CacheOk r.shared.clients r.db.friendship := by
  intro r
  have hr : r = (cmdFriend env cs command npid).1 := rfl
  simp only [cmdFriend] at hr
  rcases apply_cases (getUserId cs.db) ⟨command, cs.session.info.userId, npid, env.readOk,
    env.writeOk⟩ cs.db.friendship with ⟨hsame, herr⟩ | ⟨otherId, hpass, hd, heq⟩
  · rw [if_neg herr, hsame] at hr
    rw [hr]
    exact ⟨hdb, hcache⟩
  · rw [heq, if_pos rfl, hd] at hr
    obtain ⟨name, hname, hid⟩ := Option.bind_eq_some_iff.mp hpass.found
    simp only at hname
    subst hname
    have hne := hpass.ne
    have hacc := hpass.accepts
    simp only [FriendCommand.read, hread, if_true, Option.getD_some, hid] at hr hne hacc
    rw [hr]
    exact ⟨hdb.putRel hne hme (getUserId_named hid), hcache.update hne hacc name⟩

/-- What is to be shown of a command. -/
theorem FriendsInv.request {s : Server} (h : FriendsInv s) {r : CommandState}
    (hdb : r.db.Schema) (hnamed : ∀ uid, s.db.Named uid → r.db.Named uid)
    (hcache : CacheOk r.shared.clients r.db.friendship)
    (hsession : r.session.authenticated = true → r.db.Named r.session.info.userId) :
    FriendsInv { s with db := r.db, shared := r.shared, conns := s.conns.set c r.session } := by
  refine ⟨hdb, fun c' session hc hauth => ?_, hcache⟩
  rcases Table.of_get?_set hc with ⟨-, rfl⟩ | ⟨-, hold⟩
  · exact hsession hauth
  · exact hnamed _ (h.named c' session hold hauth)

theorem NoFriends.named_session {r : CommandResult} (h : NoFriends cs r)
    (hme : cs.session.authenticated = true → cs.db.Named cs.session.info.userId)
    (hauth : r.1.session.authenticated = true) : r.1.db.Named r.1.session.info.userId := by
  have hacc := h.account
  unfold ClientSession.account at hacc
  rw [if_pos hauth] at hacc
  split at hacc
  · rename_i hold
    obtain ⟨huid, -⟩ := Prod.mk.inj (Option.some.inj hacc)
    rw [huid]
    exact h.named _ (hme hold)
  · cases hacc

/-- **Every event** keeps the invariant. -/
theorem step_friendsInv {s : Server} (h : FriendsInv s) {e : Event} (he : e.KeepsAccounts) :
    FriendsInv (s.step sv e) := by
  cases e with
  | connect =>
    refine ⟨h.schema, fun c session hc hauth => ?_, h.cache⟩
    rcases Table.of_get?_set hc with ⟨-, rfl⟩ | ⟨-, hold⟩
    · cases hauth
    · exact h.named c session hold hauth
  | disconnect c env =>
    have hnamed : ∀ c' after, (s.step sv (.disconnect c env)).conns.get? c' = some after →
        after.authenticated = true → s.db.Named after.info.userId := by
      intro c' after hafter hauth
      obtain ⟨session, hold, hinfo, hsame⟩ := Server.of_disconnect_get? hafter
      rw [hinfo]
      exact h.named c' session hold (hsame.symm.trans hauth)
    cases hc : s.live c with
    | none => simpa only [Server.step, hc] using h
    | some session =>
      simp only [Server.step, hc] at hnamed ⊢
      refine ⟨h.schema, hnamed, ?_⟩
      -- an entry that stays is as before
      intro uid fs hfs
      refine h.cache uid fs ?_
      unfold cachedFriends at hfs ⊢
      rw [cleanup_clients] at hfs
      split at hfs
      · obtain ⟨e, he, rfl⟩ := Option.mem_map.mp hfs
        rw [(Table.of_get?_del he).2]
        rfl
      · exact hfs
  | request c cmd env =>
    simp only [Server.step]
    cases hc : s.conns.get? c with
    | none => exact h
    | some session =>
      simp only
      have hme := h.named c session hc
      rcases dispatch_friends sv env c ⟨s.db, s.shared, session⟩ cmd with
        hno | ⟨req, session', p, hcheck, hr⟩ | ⟨command, npid, rfl, hauth, hr⟩ | ⟨req, rfl, -⟩
      · refine h.request ⟨?_, ?_⟩ hno.named ?_ (hno.named_session hme)
        · rw [hno.friendship]
          exact h.schema.ordered
        · intro ids status hrow
          rw [hno.friendship] at hrow
          have hnamed := h.schema.named ids status hrow
          exact ⟨hno.named _ hnamed.1, hno.named _ hnamed.2⟩
        · intro uid fs hfs
          rw [hno.cached] at hfs
          rw [hno.friendship]
          exact h.cache uid fs hfs
      · obtain ⟨hnamed, hrels, huid⟩ := loginCheck_ok hcheck
        rw [he.2.1] at hrels
        rw [hr]
        refine h.request h.schema (fun _ h => h) (h.cache.login h.schema hrels) fun _ => ?_
        rw [huid]
        exact hnamed
      · obtain ⟨hdb, hcache⟩ := cmdFriend_cache ⟨s.db, s.shared, session⟩ command npid h.schema
          (hme hauth) h.cache he.2.1
        rw [hr]
        exact h.request hdb (fun _ h => h) hcache hme
      · exact absurd rfl (he.1 req)

/-- **The friends in `clients` are those of the table**, in every state of a run in which no
account is deleted and every database call succeeds. -/
theorem friends_cached (sv : Services) {db : Database} (hdb : db.Schema) (events : List Event)
    (hev : ∀ e ∈ events, e.KeepsAccounts) (n : ℕ) :
    let s := serverAfter sv db events n
    ∀ u e, s.shared.clients.get? u = some e →
      ∀ v, v ∈ e.friends.keys ↔ BothFriends s.db.friendship u v := by
  intro s u e he v
  have h0 : FriendsInv { db } := by
    refine ⟨hdb, fun c session hc => ?_, fun uid fs hfs => ?_⟩
    · cases hc
    · cases hfs
  have hinv : FriendsInv s := by
    refine runAt_guard (P := FriendsInv) (G := fun _ e => e.KeepsAccounts) h0 ?_ ?_ n
    · intro s e hs he
      exact step_friendsInv hs he
    · intro k hk
      exact hev _ (List.getElem_mem hk)
  have hset := hinv.cache u _ (Option.mem_map.mpr ⟨e, he, rfl⟩)
  exact Set.ext_iff.mp hset v

/-- Alice and Bob become friends while both are online. -/
theorem alice_and_bob_cached :
    let events : List Event := [.connect, .connect,
      .request 0 (.login (some ⟨"alice", "alice", "", "", "", false⟩)) .plain,
      .request 1 (.login (some ⟨"bob", "bob", "", "", "", false⟩)) .plain,
      .request 0 (.friend .addFriend (some "bob")) .plain,
      .request 1 (.friend .addFriend (some "alice")) .plain]
    ∃ e, (serverAfter .plain aliceAndBob events 6).shared.clients.get? 1 = some e ∧
      2 ∈ e.friends.keys ∧ BothFriends (serverAfter .plain aliceAndBob events 6).db.friendship 1 2 := by
  intro events
  have hentry : ∃ e ∈ (serverAfter .plain aliceAndBob events 6).shared.clients.get? 1,
      2 ∈ e.friends.keys := by decide
  obtain ⟨e, he, hmem⟩ := hentry
  refine ⟨e, he, hmem, (friends_cached .plain aliceAndBob_schema events ?_ 6 1 e he 2).mp hmem⟩
  intro event hevent
  simp only [events, List.mem_cons, List.not_mem_nil, or_false] at hevent
  rcases hevent with rfl | rfl | rfl | rfl | rfl | rfl
  · trivial
  · trivial
  all_goals exact ⟨nofun, rfl, rfl⟩

end ShadNet
