import ShadNet.Proof.Online
import ShadNet.Proof.ShadNetServer
import ShadNet.Proof.Stun
import ShadNet.Spec.WebAuth

/-!
# Who a client is

A client is known twice: on its game connection by a login, and to the Web API by the token of its account.

* `dispatch_info`: only a login that is let through changes who a connection belongs to.
* `server_identified`: so a connection belongs to an account whose password was given on it.
* `authenticate_bearer`: a token leads to its account.
* `identities_agree`: along a run of the network both ways lead to the same account.
-/

namespace ShadNet

open Lib

variable {sv : Services} {cs : CommandState} {env : Env} {c : ConnId} {qt : Qt}

/-! ## Logins -/

/-- What a session knows of its account. -/
def UserRecord.info (user : UserRecord) : ClientInfo :=
  ⟨user.userId, user.username, user.avatarUrl, user.token, user.admin, user.statAgent, user.banned⟩

/-- The connection belongs to whom it did, or to nobody any more. -/
def SameUser (before after : ClientSession) : Prop :=
  after.info = before.info ∧ (after.authenticated = true → before.authenticated = true)

theorem SameUser.refl (session : ClientSession) : SameUser session session := ⟨rfl, fun h => h⟩

/-- **Who a connection belongs to after a command.** -/
theorem dispatch_info (sv : Services) (env : Env) (c : ConnId) (cs : CommandState) (cmd : Command) :
    SameUser cs.session (dispatchCommand sv env c cs cmd).1.session ∨
      ∃ req user, cmd = .login (some req) ∧ Accepted sv cs req user ∧
        (dispatchCommand sv env c cs cmd).1.session.info = user.info := by
  have hlogin : ∀ req, SameUser cs.session (cmdLogin sv env c cs req).1.session ∨
      ∃ req' user, req = some req' ∧ Accepted sv cs req' user ∧
        (cmdLogin sv env c cs req).1.session.info = user.info := by
    intro req
    cases req with
    | none => exact Or.inl (.refl _)
    | some req =>
      by_cases haccepted : ∃ user, Accepted sv cs req user
      · obtain ⟨user, haccepted⟩ := haccepted
        refine Or.inr ⟨req, user, rfl, haccepted, ?_⟩
        unfold cmdLogin
        simp only [haccepted.loginCheck]
        rfl
      · obtain ⟨e, he⟩ := loginCheck_refused env (not_exists.mp haccepted)
        unfold cmdLogin
        simp only [he]
        exact Or.inl (.refl _)
  have hcreate : ∀ req, SameUser cs.session (cmdCreate sv env cs req).1.session := by
    intro req
    rcases cmdCreate_cases sv env cs req with ⟨e, he⟩ | ⟨r, avatarUrl, e, -, -, he⟩ <;>
      exact he ▸ .refl _
  by_cases hauth : cs.session.authenticated = true
  · unfold dispatchCommand
    rw [if_pos hauth]
    cases cmd with
    | login req =>
      rcases hlogin req with hsame | ⟨req', user, rfl, h⟩
      · exact Or.inl hsame
      · exact Or.inr ⟨req', user, rfl, h⟩
    | create req => exact Or.inl (hcreate req)
    | delete req =>
      refine Or.inl ⟨?_, fun _ => hauth⟩
      rcases cmdDelete_cases sv env cs req with ⟨e, he⟩ | ⟨_, _, _, -, -, -, -, he⟩ | ⟨userId, -, he⟩
      · simp only [he]
      · simp only [he]
        rfl
      · simp only [he]
    | setAppearOffline req => cases req <;> exact Or.inl (.refl _)
    | contextStart ctxId => cases ctxId <;> exact Or.inl ⟨rfl, fun _ => hauth⟩
    | contextStop decoded => cases decoded <;> exact Or.inl ⟨rfl, fun _ => hauth⟩
    | score comId => cases comId <;> exact Or.inl (.refl _)
    | _ => exact Or.inl ⟨rfl, fun _ => hauth⟩
  · unfold dispatchCommand
    rw [if_neg hauth]
    cases cmd with
    | login req =>
      rcases hlogin req with hsame | ⟨req', user, rfl, h⟩
      · exact Or.inl hsame
      · exact Or.inr ⟨req', user, rfl, h⟩
    | create req => exact Or.inl (hcreate req)
    | _ => exact Or.inl (.refl _)

/-! ## Accounts -/

/-- One account is new, under the next id and with the token that was drawn. -/
def Grows (token : String) (db db' : Database) : Prop :=
  ∃ account : UserRecord, account.userId = db.lastId + 1 ∧ account.token = token ∧
    db'.lastId = db.lastId + 1 ∧ ∀ a ∈ db'.accounts, a ∈ db.accounts ∨ a = account

/-- The accounts are some of those before, and no id has been given. -/
def Shrinks (db db' : Database) : Prop :=
  db'.lastId = db.lastId ∧ ∀ a ∈ db'.accounts, a ∈ db.accounts

theorem Shrinks.refl (db : Database) : Shrinks db db := ⟨rfl, fun _ ha => ha⟩

/-- A registration adds one account, whose token is the generated one, or none. -/
theorem createAccount_added (aenv : AccountEnv) (db : Database)
    (npid password avatarUrl email : String) :
    let db' := (createAccount sv aenv db npid password avatarUrl email).1
    Shrinks db db' ∨ Grows aenv.token db db' := by
  intro db'
  simp only [db']
  unfold createAccount
  simp only
  generalize (if email = "" then "" else sv.qt.trimmed (sv.qt.toLower email)) = emailCheck
  split
  · exact Or.inl (.refl db)
  split
  · exact Or.inl (.refl db)
  split
  · exact Or.inl (.refl db)
  split
  · exact Or.inl (.refl db)
  split
  · exact Or.inl (.refl db)
  split
  · exact Or.inl (.refl db)
  split
  · exact Or.inl (.refl db)
  refine Or.inr ⟨⟨db.lastId + 1, npid, sv.hashPassword password aenv.salt, aenv.salt, avatarUrl, email,
    emailCheck, aenv.token, false, false, false⟩, rfl, rfl, rfl, fun a ha => ?_⟩
  exact (List.mem_append.mp ha).imp_right List.mem_singleton.mp

/-- A deletion adds no account. -/
theorem deleteUser_shrinks (db : Database) (userId : ℤ) : Shrinks db (deleteUser db userId) :=
  ⟨rfl, fun _ ha => List.mem_of_mem_filter ha⟩

/-- **Accounts after a command**: only a registration adds one. -/
theorem dispatch_accounts (sv : Services) (env : Env) (c : ConnId) (cs : CommandState)
    (cmd : Command) :
    let db := (dispatchCommand sv env c cs cmd).1.db
    Shrinks cs.db db ∨ ((∃ req, cmd = .create req) ∧ Grows env.account.token cs.db db) := by
  have hcreate : ∀ req, let db := (cmdCreate sv env cs req).1.db
      Shrinks cs.db db ∨ Grows env.account.token cs.db db := by
    intro req
    rcases cmdCreate_cases sv env cs req with ⟨e, he⟩ | ⟨r, avatarUrl, e, -, -, he⟩
    · rw [he]
      exact Or.inl (.refl cs.db)
    · rw [he]
      exact createAccount_added env.account cs.db r.npid r.password avatarUrl r.email
  have hlogin : ∀ req, (cmdLogin sv env c cs req).1.db = cs.db := by
    intro req
    unfold cmdLogin
    split <;> rfl
  have hdelete : ∀ req, Shrinks cs.db (cmdDelete sv env cs req).1.db := by
    intro req
    rcases cmdDelete_cases sv env cs req with ⟨e, he⟩ | ⟨_, _, _, -, -, -, -, he⟩ | ⟨userId, -, he⟩
    · rw [he]
      exact .refl cs.db
    · rw [he]
      exact deleteUser_shrinks cs.db _
    · rw [he]
      exact deleteUser_shrinks cs.db _
  intro db
  simp only [db]
  unfold dispatchCommand
  split
  · cases cmd with
    | login req => exact Or.inl (hlogin req ▸ .refl cs.db)
    | create req => exact (hcreate req).imp_right fun h => ⟨⟨req, rfl⟩, h⟩
    | delete req => exact Or.inl (hdelete req)
    | setAppearOffline req => cases req <;> exact Or.inl (.refl cs.db)
    | contextStart ctxId => cases ctxId <;> exact Or.inl (.refl cs.db)
    | contextStop decoded => cases decoded <;> exact Or.inl (.refl cs.db)
    | score comId => cases comId <;> exact Or.inl (.refl cs.db)
    | friend command npid => exact Or.inl ⟨rfl, fun _ ha => ha⟩
    | _ => exact Or.inl (.refl cs.db)
  · cases cmd with
    | login req => exact Or.inl (hlogin req ▸ .refl cs.db)
    | create req => exact (hcreate req).imp_right fun h => ⟨⟨req, rfl⟩, h⟩
    | _ => exact Or.inl (.refl cs.db)

/-! ## Runs of commands -/

/-- **Only registrations** add accounts. -/
theorem step_accounts (sv : Services) (s : Server) (e : Event) :
    Shrinks s.db (s.step sv e).db ∨
      ∃ c req env, e = .request c (.create req) env ∧
        Grows env.account.token s.db (s.step sv e).db := by
  cases e with
  | connect => exact Or.inl (.refl s.db)
  | disconnect c env =>
    simp only [Server.step]
    split <;> exact Or.inl (.refl s.db)
  | request c cmd env =>
    simp only [Server.step]
    split
    · exact Or.inl (.refl s.db)
    · rename_i session hc
      rcases dispatch_accounts sv env c ⟨s.db, s.shared, session⟩ cmd with h | ⟨⟨req, rfl⟩, h⟩
      · exact Or.inl h
      · exact Or.inr ⟨c, req, env, rfl, h⟩

/-- Who a connection belongs to after an event. -/
theorem step_info {s : Server} {e : Event} {session : ClientSession}
    (h : (s.step sv e).conns.get? c = some session) (hauth : session.authenticated = true) :
    (∃ before, s.conns.get? c = some before ∧ SameUser before session) ∨
      ∃ req env before user, e = .request c (.login (some req)) env ∧ s.conns.get? c = some before ∧
        Accepted sv ⟨s.db, s.shared, before⟩ req user ∧ session.info = user.info := by
  cases e with
  | connect =>
    rcases Table.of_get?_set h with ⟨-, rfl⟩ | ⟨-, hold⟩
    · cases hauth
    · exact Or.inl ⟨session, hold, .refl session⟩
  | disconnect c' env =>
    obtain ⟨before, hbefore, hinfo, hsame⟩ := Server.of_disconnect_get? h
    exact Or.inl ⟨before, hbefore, hinfo, fun hauth => hsame ▸ hauth⟩
  | request c' cmd env =>
    simp only [Server.step] at h
    split at h
    · exact Or.inl ⟨session, h, .refl session⟩
    · rename_i before hc
      rcases Table.of_get?_set h with ⟨rfl, rfl⟩ | ⟨-, hold⟩
      · rcases dispatch_info sv env c ⟨s.db, s.shared, before⟩ cmd with
          hsame | ⟨req, user, rfl, haccepted, hinfo⟩
        · exact Or.inl ⟨before, hc, hsame⟩
        · exact Or.inr ⟨req, env, before, user, rfl, hc, haccepted, hinfo⟩
      · exact Or.inl ⟨session, hold, .refl session⟩

/-- What `GenerateToken` may return. -/
def IsGenerated (token : String) : Prop :=
  ∃ draws : List ℕ, 16 ≤ draws.length ∧ token = generateToken draws

section Run

variable (sv) (db : Database) (groups : Table String String) (commands : List Event)

/-- An account that there has been. -/
def Ever (n : ℕ) (a : UserRecord) : Prop :=
  ∃ j ≤ n, a ∈ (configuredServerAfter sv db groups commands j).db.accounts

/-- The connection was logged in as the user by one of the first `n` commands, with his password. -/
def SignedIn (n : ℕ) (c : ConnId) (user : UserRecord) : Prop :=
  ∃ m < n, ∃ req env before, commands[m]? = some (.request c (.login (some req)) env) ∧
    let s := configuredServerAfter sv db groups commands m
    s.conns.get? c = some before ∧ Accepted sv ⟨s.db, s.shared, before⟩ req user

/-- **No token is drawn twice**: those at the start are different, and a registration draws one that no
account has had. -/
structure TokensDrawn : Prop where
  start : ∀ a ∈ db.accounts, IsGenerated a.token
  unique : ∀ a ∈ db.accounts, ∀ b ∈ db.accounts, a.token = b.token → a = b
  drawn : ∀ (m : ℕ) (c : ConnId) (req : Option RegistrationRequest) (env : Env),
    commands[m]? = some (.request c (.create req) env) → IsGenerated env.account.token ∧
      ∀ a, Ever sv db groups commands m a → a.token ≠ env.account.token

/-- What is known of the accounts that there have been, and of the connections. -/
structure Identified (n : ℕ) : Prop where
  ids : ∀ a b, Ever sv db groups commands n a → Ever sv db groups commands n b →
    a.userId = b.userId → a = b
  given : ∀ a, Ever sv db groups commands n a →
    a.userId ≤ (configuredServerAfter sv db groups commands n).db.lastId
  tokens : ∀ a b, Ever sv db groups commands n a → Ever sv db groups commands n b →
    a.token = b.token → a = b
  generated : ∀ a, Ever sv db groups commands n a → IsGenerated a.token
  conns : ∀ c session, (configuredServerAfter sv db groups commands n).conns.get? c = some session →
    session.authenticated = true → ∃ user, Ever sv db groups commands n user ∧
      session.info = user.info ∧ SignedIn sv db groups commands n c user

end Run

variable {db : Database} {groups : Table String String} {commands : List Event} {n : ℕ}

/-- What was once registered was registered ever after. -/
theorem Ever.mono {m : ℕ} {a : UserRecord} (h : Ever sv db groups commands n a) (hnm : n ≤ m) :
    Ever sv db groups commands m a := by
  obtain ⟨j, hj, ha⟩ := h
  exact ⟨j, by omega, ha⟩

theorem SignedIn.mono {m : ℕ} {user : UserRecord} (h : SignedIn sv db groups commands n c user)
    (hnm : n ≤ m) : SignedIn sv db groups commands m c user := by
  obtain ⟨j, hj, h⟩ := h
  exact ⟨j, by omega, h⟩

/-- An account is new with this event, or was there before. -/
theorem ever_succ {a : UserRecord} (h : Ever sv db groups commands (n + 1) a) :
    Ever sv db groups commands n a ∨
      a ∈ (configuredServerAfter sv db groups commands (n + 1)).db.accounts := by
  obtain ⟨j, hj, ha⟩ := h
  rcases Nat.lt_or_ge n j with hlt | hle
  · obtain rfl : j = n + 1 := by omega
    exact Or.inr ha
  · exact Or.inl ⟨j, hle, ha⟩

/-- What there has been after a step, which may have brought one account more. -/
theorem ever_step (hn : n < commands.length) :
    let s := configuredServerAfter sv db groups commands n
    let s' := configuredServerAfter sv db groups commands (n + 1)
    s.db.lastId ≤ s'.db.lastId ∧
    ((∀ a, Ever sv db groups commands (n + 1) a → Ever sv db groups commands n a) ∨
      ∃ (account : UserRecord) (c : ConnId) (req : Option RegistrationRequest) (env : Env),
        commands[n]? = some (.request c (.create req) env) ∧ account.userId = s.db.lastId + 1 ∧
        s'.db.lastId = s.db.lastId + 1 ∧ account.token = env.account.token ∧
        ∀ a, Ever sv db groups commands (n + 1) a → Ever sv db groups commands n a ∨ a = account) := by
  intro s s'
  have hs' : s' = s.step sv commands[n] := runAt_succ _ hn
  have hget : commands[n]? = some commands[n] := List.getElem?_eq_getElem hn
  rcases step_accounts sv s commands[n] with ⟨hid, hall⟩ |
    ⟨c, req, env, he, account, hid, htoken, hlast, hall⟩
  · rw [← hs'] at hid hall
    refine ⟨hid.ge, Or.inl fun a ha => ?_⟩
    rcases ever_succ ha with hold | hnow
    · exact hold
    · exact ⟨n, le_rfl, hall a hnow⟩
  · rw [← hs'] at hlast hall
    refine ⟨by omega, Or.inr ⟨account, c, req, env, hget.trans (congrArg some he), hid, hlast, htoken,
      fun a ha => ?_⟩⟩
    rcases ever_succ ha with hold | hnow
    · exact Or.inl hold
    · exact (hall a hnow).imp_left fun h => ⟨n, le_rfl, h⟩

/-- What tells accounts apart does so with one more, if it is new with that one. -/
theorem unique_of_new {β : Type} {f : UserRecord → β} {account : UserRecord}
    (hall : ∀ a, Ever sv db groups commands (n + 1) a → Ever sv db groups commands n a ∨ a = account)
    (hold : ∀ a b, Ever sv db groups commands n a → Ever sv db groups commands n b → f a = f b → a = b)
    (hnew : ∀ a, Ever sv db groups commands n a → f a ≠ f account) (a b : UserRecord)
    (ha : Ever sv db groups commands (n + 1) a) (hb : Ever sv db groups commands (n + 1) b)
    (hab : f a = f b) : a = b := by
  rcases hall a ha with ha | rfl <;> rcases hall b hb with hb | rfl
  · exact hold a b ha hb hab
  · exact absurd hab (hnew a ha)
  · exact absurd hab.symm (hnew b hb)
  · rfl

/-- Before the first command the accounts are those of the start. -/
theorem Identified.start (hids : db.IdsOk) (htokens : TokensDrawn sv db groups commands) :
    Identified sv db groups commands 0 := by
  have hever : ∀ a, Ever sv db groups commands 0 a → a ∈ db.accounts := by
    rintro a ⟨j, hj, ha⟩
    obtain rfl : j = 0 := by omega
    simpa [configuredServerAfter] using ha
  refine ⟨fun a b ha hb => hids.unique a (hever a ha) b (hever b hb), fun a ha => ?_,
    fun a b ha hb => htokens.unique a (hever a ha) b (hever b hb),
    fun a ha => htokens.start a (hever a ha), fun c session hc => ?_⟩
  · simpa [configuredServerAfter] using hids.given a (hever a ha)
  · simp [configuredServerAfter] at hc

/-- Whoever is logged in after a command was so before it, or logs in with it. -/
theorem Identified.conns_succ (h : Identified sv db groups commands n) (hn : n < commands.length)
    {session : ClientSession}
    (hc : (configuredServerAfter sv db groups commands (n + 1)).conns.get? c = some session)
    (hauth : session.authenticated = true) : ∃ user, Ever sv db groups commands (n + 1) user ∧
      session.info = user.info ∧ SignedIn sv db groups commands (n + 1) c user := by
  have hstep : configuredServerAfter sv db groups commands (n + 1) =
      (configuredServerAfter sv db groups commands n).step sv commands[n] := runAt_succ _ hn
  have hget : commands[n]? = some commands[n] := List.getElem?_eq_getElem hn
  rw [hstep] at hc
  rcases step_info hc hauth with ⟨before, hbefore, hinfo, hwas⟩ |
    ⟨req, env, before, user, he, hbefore, haccepted, hinfo⟩
  · obtain ⟨user, hever, heq, hlogin⟩ := h.conns c before hbefore (hwas hauth)
    exact ⟨user, hever.mono (Nat.le_succ n), hinfo.trans heq, hlogin.mono (Nat.le_succ n)⟩
  · exact ⟨user, ⟨n, Nat.le_succ n, (checkUser_found haccepted.check).1⟩, hinfo, n, by omega, req,
      env, before, hget.trans (congrArg some he), hbefore, haccepted⟩

/-- **Along a run of commands**, whatever clients do. -/
theorem server_identified (hids : db.IdsOk) (htokens : TokensDrawn sv db groups commands) :
    ∀ n ≤ commands.length, Identified sv db groups commands n := by
  intro n
  induction n with
  | zero => exact fun _ => .start hids htokens
  | succ n ih =>
    intro hn
    have h := ih (by omega)
    have hconns := fun c session => @Identified.conns_succ _ c _ _ _ _ h hn session
    obtain ⟨hlast, hold | ⟨account, c, req, env, he, hid, hnext, htoken, hall⟩⟩ :=
      @ever_step sv db groups commands n hn
    · refine ⟨fun a b ha hb => h.ids a b (hold a ha) (hold b hb), fun a ha => ?_,
        fun a b ha hb => h.tokens a b (hold a ha) (hold b hb),
        fun a ha => h.generated a (hold a ha), hconns⟩
      have hle := h.given a (hold a ha)
      omega
    · -- the new account has an id and a token of its own
      obtain ⟨hgenerated, hfresh⟩ := htokens.drawn n c req env he
      refine ⟨unique_of_new hall h.ids fun a ha heq => ?_, fun a ha => ?_,
        unique_of_new hall h.tokens fun a ha => htoken ▸ hfresh a ha, fun a ha => ?_, hconns⟩
      · have hle := h.given a ha
        omega
      · rcases hall a ha with ha | rfl
        · have hle := h.given a ha
          omega
        · omega
      · rcases hall a ha with ha | rfl
        · exact h.generated a ha
        · exact htoken ▸ hgenerated

/-! ## Tokens -/

/-- What is taken from Qt: only what is around a text is trimmed off. -/
def Qt.Trims (qt : Qt) : Prop := ∀ (a b : Char) (l : List Char), a.isAlphanum = true →
  b.isAlphanum = true → qt.trimmed (String.ofList (a :: l ++ [b])) = String.ofList (a :: l ++ [b])

/-- A token begins and ends with a letter or a digit. -/
theorem IsGenerated.ends {token : String} (h : IsGenerated token) :
    ∃ a l b, token = String.ofList (a :: l ++ [b]) ∧ a.isAlphanum = true ∧ b.isAlphanum = true := by
  obtain ⟨draws, hlength, rfl⟩ := h
  have hchar : ∀ n : ℕ, (tokenChars.getD (n % tokenChars.length) 'A').isAlphanum = true := by
    have hall : ∀ c ∈ tokenChars, c.isAlphanum = true := List.all_eq_true.mp (by decide)
    intro n
    have hlt : n % tokenChars.length < tokenChars.length := Nat.mod_lt _ (by decide)
    rw [List.getD_eq_getElem?_getD, List.getElem?_eq_getElem hlt, Option.getD_some]
    exact hall _ (List.getElem_mem hlt)
  unfold generateToken
  generalize hf : (fun n => tokenChars.getD (n % tokenChars.length) 'A') = f
  have hf' : ∀ n, (f n).isAlphanum = true := fun n => by
    rw [← hf]
    exact hchar n
  have htake : (draws.take 16).length = 16 := by rw [List.length_take]; omega
  generalize draws.take 16 = picks at htake
  cases picks with
  | nil => cases htake
  | cons n picks =>
    have hne : picks ≠ [] := by
      rintro rfl
      cases htake
    refine ⟨f n, picks.dropLast.map f, f (picks.getLast hne), ?_, hf' n, hf' _⟩
    have hsplit : picks.map f = picks.dropLast.map f ++ [f (picks.getLast hne)] := by
      conv_lhs => rw [← List.dropLast_append_getLast hne]
      rw [List.map_append]
      rfl
    rw [List.map_cons, hsplit, List.cons_append]

/-- The header that a client sends with its token. -/
def bearer (token : String) : List UInt8 := toUtf8 (bearerPrefix ++ token)

/-- **A token leads to its account.** -/
theorem authenticate_bearer (hqt : qt.Trims) {token : String} (h : IsGenerated token) (db : Database) :
    authenticate qt db true (bearer token) = (db.accounts.find? fun a => a.token = token).elim
      (.error (jsonError .unauthorized errInvalidToken "Invalid bearer token"))
      fun a => .ok ⟨a.userId, a.username⟩ := by
  obtain ⟨a, l, b, htoken, ha, hb⟩ := h.ends
  have hheader : bearerPrefix ++ token = String.ofList ('B' :: ("earer ".toList ++ a :: l) ++ [b]) := by
    rw [htoken]
    apply String.ext
    simp [bearerPrefix]
  have hne : bearer token ≠ [] := by
    unfold bearer toUtf8 utf8
    rw [hheader]
    simp [String.utf8EncodeChar_ne_nil]
  have htext : qt.trimmed (fromUtf8 (bearer token)) = bearerPrefix ++ token := by
    have hmark : (bearerPrefix ++ token).toList.head? ≠ some (Char.ofNat 0xFEFF) := by
      rw [hheader]
      simp
    unfold bearer
    rw [fromUtf8_toUtf8 hmark, hheader]
    exact hqt 'B' b _ (by decide) hb
  have hstarts : startsWithBearer qt (bearerPrefix ++ token) = true := by
    have htake : (bearerPrefix ++ token).toList.take bearerPrefix.length = bearerPrefix.toList := by
      rw [String.toList_append]
      exact List.take_left' rfl
    unfold startsWithBearer Qt.eqNoCase
    rw [htake, String.toList_ofList]
    exact decide_eq_true rfl
  have hrest : qt.trimmed (String.ofList ((bearerPrefix ++ token).toList.drop bearerPrefix.length)) =
      token := by
    have hdrop : (bearerPrefix ++ token).toList.drop bearerPrefix.length = token.toList := by
      rw [String.toList_append]
      exact List.drop_left' rfl
    rw [hdrop, htoken, String.toList_ofList]
    exact hqt a b l ha hb
  have hfull : token ≠ "" := by
    intro hempty
    have hlist := congrArg String.toList (htoken.symm.trans hempty)
    simp at hlist
  unfold authenticate
  simp only [if_neg hne, htext, hstarts, hrest, if_neg hfull, Bool.not_true, Bool.false_eq_true, if_false]
  cases db.accounts.find? fun a => a.token = token <;> rfl

/-- The row with the token is the row with the id, if that is there. -/
theorem find_token {user : UserRecord} (hids : ∀ a ∈ db.accounts, a.userId = user.userId → a = user)
    (htokens : ∀ a ∈ db.accounts, a.token = user.token → a = user) :
    db.accounts.find? (fun a => a.token = user.token) =
      if (getUsername db user.userId).isSome then some user else none := by
  have hthere : (getUsername db user.userId).isSome = true ↔ user ∈ db.accounts := by
    unfold getUsername
    rw [Option.isSome_map, List.find?_isSome]
    constructor
    · rintro ⟨a, ha, heq⟩
      exact hids a ha (by simpa using heq) ▸ ha
    · exact fun hmem => ⟨user, hmem, by simp⟩
  by_cases hmem : user ∈ db.accounts
  · rw [if_pos (hthere.mpr hmem)]
    cases hfind : db.accounts.find? fun a => a.token = user.token with
    | none => simpa using List.find?_eq_none.mp hfind user hmem
    | some a =>
      rw [htokens a (List.mem_of_find?_eq_some hfind) (by simpa using List.find?_some hfind)]
  · rw [if_neg (mt hthere.mp hmem)]
    refine List.find?_eq_none.mpr fun a ha heq => hmem ?_
    exact htokens a ha (by simpa using heq) ▸ ha

/-- **Both ways lead to the same account.** After any run of the network whose registrations draw new
tokens, a connection that is logged in belongs to an account whose password was given on it, and the token
that `GetToken` tells it leads the Web API to this very account, as long as it is there; once it is deleted
the token leads nowhere, whatever accounts come after it. -/
theorem identities_agree (setup : NetworkSetup) (start : ServerStart) (events : List NetworkEvent) (n : ℕ)
    (hids : start.db.IdsOk) (hqt : setup.qt.Trims)
    (htokens : TokensDrawn setup.toServices start.db start.titleGroups
      (networkCommands setup start events n)) {c : ConnId} {conn : Connection}
    (hc : (networkAfter setup start events n).conns.get? c = some conn)
    (hauth : conn.session.authenticated = true) :
    let w := networkAfter setup start events n
    let info := conn.session.info
    let commands := networkCommands setup start events n
    (∃ user, info = user.info ∧
      SignedIn setup.toServices start.db start.titleGroups commands commands.length c user) ∧
    (∃ body, cmdGetToken info = .ok body ∧ body.1 = info.token) ∧
    authenticate setup.qt w.db true (bearer info.token) =
      if (getUsername w.db info.userId).isSome then .ok ⟨info.userId, info.npid⟩
      else .error (jsonError .unauthorized errInvalidToken "Invalid bearer token") := by
  intro w info commands
  have hsim := network_simulates setup start events n
  have hid : Identified setup.toServices start.db start.titleGroups commands commands.length :=
    server_identified hids htokens commands.length le_rfl
  have hsession : (configuredServerAfter setup.toServices start.db start.titleGroups commands
      commands.length).conns.get? c = some conn.session := by
    rw [hsim.conns c, hc, Option.map_some]
  obtain ⟨user, hever, hinfo, hlogin⟩ := hid.conns c conn.session hsession hauth
  have htoken : info.token = user.token := congrArg ClientInfo.token hinfo
  have huid : info.userId = user.userId := congrArg ClientInfo.userId hinfo
  have hname : info.npid = user.username := congrArg ClientInfo.npid hinfo
  have hgenerated := hid.generated user hever
  have hthere : ∀ a ∈ w.db.accounts,
      Ever setup.toServices start.db start.titleGroups commands commands.length a := by
    intro a ha
    refine ⟨commands.length, le_rfl, ?_⟩
    rw [hsim.db]
    exact ha
  refine ⟨⟨user, hinfo, hlogin⟩, ⟨(info.token, accountId info.userId, info.npid), ?_, rfl⟩, ?_⟩
  · obtain ⟨a, l, b, hends, -, -⟩ := hgenerated.ends
    have hfull : info.token ≠ "" := by
      intro hempty
      have hlist := congrArg String.toList ((htoken.trans hends).symm.trans hempty)
      simp at hlist
    exact if_neg hfull
  · rw [htoken, authenticate_bearer hqt hgenerated, huid, hname,
      find_token (fun a ha => hid.ids a user (hthere a ha) hever)
        (fun a ha => hid.tokens a user (hthere a ha) hever)]
    split <;> rfl

/-! ### Alice shows her token -/

theorem Qt.ascii_trims : Qt.ascii.Trims := by
  intro a b l ha hb
  have hblank : ∀ x : Char, x.isAlphanum = true → x.isWhitespace = false := by
    intro x hx
    by_contra hw
    rw [Bool.not_eq_false] at hw
    have hcases : ((x = ' ' ∨ x = '\t') ∨ x = '\r') ∨ x = '\n' := by
      simpa [Char.isWhitespace] using hw
    rcases hcases with ((rfl | rfl) | rfl) | rfl <;> revert hx <;> decide
  simp [Qt.ascii, hblank a ha, hblank b hb]

/-- Two accounts whose tokens are generated. -/
def aliceWithToken : Database :=
  ⟨[{ plainUser 1 "alice" with token := generateToken (List.replicate 16 0) },
    { plainUser 2 "bob" with token := generateToken (List.replicate 16 1) }], 2, ∅⟩

/-- A server that reads every login as Alice's. -/
def aliceSetup : NetworkSetup := { NetworkSetup.plain with
  messages := { Messages.none with
    login := fun _ => some { npid := "alice", password := "alice", titleName := "Game" } } }

/-- A start with Alice's account. -/
def aliceStart : ServerStart := { ServerStart.plain with db := aliceWithToken }

/-- Alice logs in on the first connection. -/
def aliceLogsIn : List NetworkEvent :=
  [.connect "10.0.0.2", .receive 0 (RequestFrame.bytes ⟨0, 1, [0, 0, 0, 0], by decide⟩),
    .process 0 .plain]

/-- A request that may create an account. -/
def Event.registers : Event → Bool
  | .request _ (.create _) _ => true
  | _ => false

theorem identities_agree_alice : ∃ conn,
    (networkAfter aliceSetup aliceStart aliceLogsIn 3).conns.get? 0 = some conn ∧
      authenticate Qt.ascii (networkAfter aliceSetup aliceStart aliceLogsIn 3).db true
        (bearer conn.session.info.token) = .ok ⟨1, "alice"⟩ := by
  have hrun : ((networkAfter aliceSetup aliceStart aliceLogsIn 3).conns.get? 0).map
      (fun conn => (conn.session.authenticated, conn.session.info.userId, conn.session.info.npid)) =
      some (true, 1, "alice") := by decide +kernel
  have hthere : (getUsername (networkAfter aliceSetup aliceStart aliceLogsIn 3).db 1).isSome = true := by
    decide +kernel
  obtain ⟨conn, hconn, heq⟩ := Option.map_eq_some_iff.mp hrun
  obtain ⟨hauth, huid, hname⟩ : _ ∧ _ ∧ _ := by simpa using heq
  have htokens : TokensDrawn aliceSetup.toServices aliceStart.db aliceStart.titleGroups
      (networkCommands aliceSetup aliceStart aliceLogsIn 3) := by
    refine ⟨?_, ?_, fun m c req env he => ?_⟩
    · intro a ha
      simp only [aliceStart, aliceWithToken, List.mem_cons, List.not_mem_nil, or_false] at ha
      rcases ha with rfl | rfl
      · exact ⟨_, by simp, rfl⟩
      · exact ⟨_, by simp, rfl⟩
    · have hdifferent : generateToken (List.replicate 16 0) ≠ generateToken (List.replicate 16 1) := by
        decide +kernel
      intro a ha b hb heq
      simp only [aliceStart, aliceWithToken, List.mem_cons, List.not_mem_nil, or_false] at ha hb
      rcases ha with rfl | rfl <;> rcases hb with rfl | rfl
      · rfl
      · exact absurd heq hdifferent
      · exact absurd heq.symm hdifferent
      · rfl
    · have hnone : ∀ e ∈ networkCommands aliceSetup aliceStart aliceLogsIn 3,
          Event.registers e = false := by decide +kernel
      exact absurd (hnone _ (List.mem_of_getElem? he)) (by simp [Event.registers])
  have hids : aliceStart.db.IdsOk := by
    constructor <;> simp [aliceStart, aliceWithToken, plainUser]
  have hagree := (identities_agree aliceSetup aliceStart aliceLogsIn 3 hids Qt.ascii_trims htokens
    hconn hauth).2.2
  simp only [huid, hname, hthere, if_true] at hagree
  exact ⟨conn, hconn, hagree⟩

end ShadNet
