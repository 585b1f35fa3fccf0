import ShadNet.Proof.Online
import ShadNet.Spec.Login

/-!
# Concurrent logins

* `check_register`: a login whose two steps stand together is `CmdLogin`.
* `logins_ok_iff`: every account has at most one connection, further logins to it are refused as
  such, and a connection that goes leaves the entries of others, exactly when no login is let
  through while another connection is in the middle of a login to the same account.
-/

namespace ShadNet

open Lib

variable {sv : Services} {s : LoginServer} {c : ConnId} {session : ClientSession}

/-- **Two steps make a command.** -/
theorem check_register (hc : s.conns.get? c = some ⟨session, none⟩) (req : Option LoginRequest)
    (env : Env) :
    let s' := (s.step sv (.check c req env)).step sv (.register c)
    let r := (cmdLogin sv env c ⟨s.db, s.shared, session⟩ req).1
    s'.db = r.db ∧ s'.shared = r.shared ∧ s'.conns.get? c = some ⟨r.session, none⟩ := by
  intro s' r
  simp only [s', r, LoginServer.step, hc, cmdLogin]
  cases loginCheck sv env ⟨s.db, s.shared, session⟩ req with
  | error e => simp only [hc, true_and]
  | ok r => simp

/-- No two connections are logged in to one account. -/
def AtMostOne (s : LoginServer) : Prop :=
  ∀ c c' conn conn', s.conns.get? c = some conn → s.conns.get? c' = some conn' →
    conn.session.authenticated = true → conn'.session.authenticated = true →
    conn.session.info.userId = conn'.session.info.userId → c = c'

/-- What a login or a disconnect has to do in a state. -/
def LoginStepOk (sv : Services) (s : LoginServer) : LoginEvent → Prop
  | .check c (some req) env => ∀ session user c' conn', s.conns.get? c = some ⟨session, none⟩ →
      checkUser sv s.db req.npid req.password req.token sv.config.emailValidated = some user →
      user.banned = false → s.conns.get? c' = some conn' → conn'.session.authenticated = true →
      conn'.session.info.userId = user.userId →
      loginCheck sv env ⟨s.db, s.shared, session⟩ (some req) = .error .loginAlreadyLoggedIn
  | .disconnect c env => ∀ uid entry, s.shared.clients.get? uid = some entry → entry.send ≠ c →
      (s.step sv (.disconnect c env)).shared.clients.get? uid = some entry
  | _ => True

/-- The login is let through only if no other connection is in the middle of one to the same
account. -/
def NoRace (sv : Services) (s : LoginServer) : LoginEvent → Prop
  | .check c (some req) _ => ∀ session user c' conn' p, s.conns.get? c = some ⟨session, none⟩ →
      Accepted sv ⟨s.db, s.shared, session⟩ req user → s.conns.get? c' = some conn' →
      conn'.pending = some p → p.user.userId ≠ user.userId
  | _ => True

/-! ## Invariants -/

/-- What is so in every state: numbers not given yet belong to no connection, and a connection in
the middle of a login is logged in to its account already. -/
structure LoginInv (s : LoginServer) : Prop where
  fresh : ∀ c, s.nextConn ≤ c → s.conns.get? c = none
  pending : ∀ c conn p, s.conns.get? c = some conn → conn.pending = some p →
    conn.session.authenticated = true ∧ conn.session.info.userId = p.user.userId

/-- What is so without races: a connection whose login is done has its entry. -/
structure NoRaceInv (s : LoginServer) : Prop where
  atMostOne : AtMostOne s
  registered : ∀ c session, s.conns.get? c = some ⟨session, none⟩ → session.authenticated = true →
    ∃ npid, s.shared.entry session.info.userId = some (npid, c)

/-- What a step can do: nothing, or what its event says. -/
inductive LoginStep (sv : Services) (s : LoginServer) : LoginEvent → LoginServer → Prop
  | connect : LoginStep sv s .connect
      { s with conns := s.conns.set s.nextConn {}, nextConn := s.nextConn + 1 }
  | idle (e : LoginEvent) : LoginStep sv s e s
  | check {c session req user env} (hc : s.conns.get? c = some ⟨session, none⟩)
      (h : Accepted sv ⟨s.db, s.shared, session⟩ req user) :
      LoginStep sv s (.check c (some req) env)
        { s with conns := s.conns.set c ⟨adoptUser s.shared session user req.titleId,
          some ⟨user, req, getRelationships s.db user.userId env.readOk⟩⟩ }
  | register {c session p} (hc : s.conns.get? c = some ⟨session, some p⟩) :
      LoginStep sv s (.register c)
        { s with shared := loginRegister s.shared c p, conns := s.conns.set c ⟨session, none⟩ }
  | disconnect {c session env} (hc : s.conns.get? c = some ⟨session, none⟩) :
      LoginStep sv s (.disconnect c env)
        { s with shared := cleanupOnDisconnect env session s.shared, conns := s.conns.del c }

theorem loginStep (sv : Services) (s : LoginServer) (e : LoginEvent) :
    LoginStep sv s e (s.step sv e) := by
  cases e with
  | connect => exact .connect
  | check c req env =>
    unfold LoginServer.step
    simp only
    split
    · rename_i session hc
      cases req with
      | none => exact .idle _
      | some req =>
        by_cases h : ∃ user, Accepted sv ⟨s.db, s.shared, session⟩ req user
        · obtain ⟨user, h⟩ := h
          rw [h.loginCheck]
          exact .check hc h
        · obtain ⟨err, herr⟩ := loginCheck_refused env (not_exists.mp h)
          rw [herr]
          exact .idle _
    · exact .idle _
  | register c =>
    unfold LoginServer.step
    simp only
    split
    · rename_i hc
      exact .register hc
    · exact .idle _
  | disconnect c env =>
    unfold LoginServer.step
    simp only
    split
    · rename_i hc
      exact .disconnect hc
    · exact .idle _

theorem LoginInv.ne {conn : LoginConn} (h : LoginInv s) (hc : s.conns.get? c = some conn) {c' : ConnId}
    (hle : s.nextConn ≤ c') : c' ≠ c := by
  rintro rfl
  rw [h.fresh c' hle] at hc
  cases hc

/-- A live connection is written. -/
theorem LoginInv.set {conn conn' : LoginConn} (h : LoginInv s) (hc : s.conns.get? c = some conn)
    (hpending : ∀ p, conn'.pending = some p →
      conn'.session.authenticated = true ∧ conn'.session.info.userId = p.user.userId)
    (shared : SharedState) :
    LoginInv { s with shared, conns := s.conns.set c conn' } := by
  constructor
  · intro c' hle
    have hne := h.ne hc hle
    exact (Table.get?_set_ne hne).trans (h.fresh c' hle)
  · intro c' conn'' p hc' hp
    rcases Table.of_get?_set hc' with ⟨-, rfl⟩ | ⟨-, hc'⟩
    · exact hpending p hp
    · exact h.pending c' conn'' p hc' hp

/-- **Every event** keeps the invariant. -/
theorem step_loginInv (h : LoginInv s) (e : LoginEvent) : LoginInv (s.step sv e) := by
  have hstep := loginStep sv s e
  generalize s.step sv e = s' at hstep
  cases hstep with
  | idle => exact h
  | connect =>
    constructor
    · intro c hle
      have hne : c ≠ s.nextConn := Nat.ne_of_gt hle
      exact (Table.get?_set_ne hne).trans (h.fresh c (Nat.le_of_succ_le hle))
    · intro c conn p hc hp
      rcases Table.of_get?_set hc with ⟨-, rfl⟩ | ⟨-, hc⟩
      · cases hp
      · exact h.pending c conn p hc hp
  | check hc ha =>
    refine h.set hc (fun p hp => ?_) s.shared
    cases hp
    exact ⟨rfl, rfl⟩
  | register hc =>
    refine h.set hc (fun p hp => ?_) _
    cases hp
  | disconnect hc =>
    constructor
    · intro c' hle
      have hne := h.ne hc hle
      exact (Table.get?_del_ne hne).trans (h.fresh c' hle)
    · intro c' conn p hc' hp
      exact h.pending c' conn p (Table.of_get?_del hc').2 hp

/-- A disconnect takes the entry of its user away. -/
theorem cleanup_entry (env : Env) (sh : SharedState) (hauth : session.authenticated = true) :
    (cleanupOnDisconnect env session sh).entry =
      Function.update sh.entry session.info.userId none := by
  funext uid
  simp only [SharedState.entry, cleanup_clients, hauth, if_true, Table.get?_del,
    Function.update_apply]
  split <;> rfl

/-- A step of one connection keeps at most one connection for each account, if it logs the
connection in only to accounts that no other connection has. -/
theorem AtMostOne.set {conn : LoginConn} {shared : SharedState} (h : AtMostOne s)
    (hnew : ∀ c' conn', c' ≠ c → s.conns.get? c' = some conn' → conn.session.authenticated = true →
      conn'.session.authenticated = true →
      conn.session.info.userId ≠ conn'.session.info.userId) (n : ConnId) :
    AtMostOne ⟨s.db, shared, s.conns.set c conn, n⟩ := by
  intro c₁ c₂ conn₁ conn₂ h₁ h₂ ha₁ ha₂ hid
  -- each of the two is the connection that took the step, or an old one
  rcases Table.of_get?_set h₁ with ⟨rfl, rfl⟩ | ⟨hne₁, hold₁⟩ <;>
    rcases Table.of_get?_set h₂ with ⟨rfl, rfl⟩ | ⟨hne₂, hold₂⟩
  · rfl
  · exact absurd hid (hnew c₂ conn₂ hne₂ hold₂ ha₁ ha₂)
  · exact absurd hid.symm (hnew c₁ conn₁ hne₁ hold₁ ha₂ ha₁)
  · exact h c₁ c₂ conn₁ conn₂ hold₁ hold₂ ha₁ ha₂ hid

/-- A login that is let through is to an account that no other connection has. -/
theorem NoRaceInv.accepted {req : LoginRequest} {user : UserRecord} {env : Env} {c' : ConnId}
    {conn' : LoginConn} (h : NoRaceInv s) (hinv : LoginInv s)
    (hrace : NoRace sv s (.check c (some req) env)) (hc : s.conns.get? c = some ⟨session, none⟩)
    (ha : Accepted sv ⟨s.db, s.shared, session⟩ req user) (hc' : s.conns.get? c' = some conn')
    (hauth : conn'.session.authenticated = true) : user.userId ≠ conn'.session.info.userId := by
  intro hid
  obtain ⟨session', pending⟩ := conn'
  cases pending with
  | none =>
    -- its entry would have refused the login
    obtain ⟨npid, hentry⟩ := h.registered c' session' hc' hauth
    have hoff : s.shared.clients.get? user.userId = none := ha.offline
    simp only [SharedState.entry, ← show user.userId = session'.info.userId from hid, hoff] at hentry
    cases hentry
  | some p =>
    -- it is in the middle of a login itself
    have hp := (hinv.pending c' _ p hc' rfl).2
    exact hrace session user c' _ p hc ha hc' rfl (hp.symm.trans hid.symm)

/-- A step in which no two logins race keeps `NoRaceInv`. -/
theorem step_noRaceInv (h : NoRaceInv s) (hinv : LoginInv s) {e : LoginEvent}
    (hrace : NoRace sv s e) : NoRaceInv (s.step sv e) := by
  have hstep := loginStep sv s e
  generalize s.step sv e = s' at hstep
  cases hstep with
  | idle => exact h
  | connect =>
    refine ⟨h.atMostOne.set (fun c' conn' _ _ hauth => by cases hauth) _, ?_⟩
    intro c session hc hauth
    rcases Table.of_get?_set hc with ⟨-, heq⟩ | ⟨-, hc⟩
    · cases heq
      cases hauth
    · exact h.registered c session hc hauth
  | check hc ha =>
    refine ⟨h.atMostOne.set (fun c' conn' _ hc' _ hauth => h.accepted hinv hrace hc ha hc' hauth) _,
      ?_⟩
    -- the caller is not done yet, and the others' entries are as before
    intro c' session' hc' hauth
    rcases Table.of_get?_set hc' with ⟨-, heq⟩ | ⟨-, hc'⟩
    · cases heq
    · exact h.registered c' session' hc' hauth
  | @register c session p hc =>
    obtain ⟨hauth, hid⟩ := hinv.pending c _ p hc rfl
    -- the entry that is overwritten belongs to no other connection
    have hother : ∀ c' conn', c' ≠ c → s.conns.get? c' = some conn' →
        conn'.session.authenticated = true → session.info.userId ≠ conn'.session.info.userId :=
      fun c' conn' hne hc' hauth' hid' => hne (h.atMostOne c c' _ conn' hc hc' hauth hauth' hid').symm
    refine ⟨h.atMostOne.set (fun c' conn' hne hc' _ hauth' => hother c' conn' hne hc' hauth') _, ?_⟩
    intro c' session' hc' hauth'
    simp only [loginRegister_entry, Function.update_apply]
    rcases Table.of_get?_set hc' with ⟨rfl, heq⟩ | ⟨hne, hc'⟩
    · cases heq
      exact ⟨_, if_pos hid⟩
    · obtain ⟨npid, hentry⟩ := h.registered c' session' hc' hauth'
      refine ⟨npid, ?_⟩
      rw [if_neg fun heq => hother c' _ hne hc' hauth' (hid.trans heq.symm)]
      exact hentry
  | @disconnect c session env hc =>
    constructor
    · intro c₁ c₂ conn₁ conn₂ h₁ h₂
      exact h.atMostOne c₁ c₂ conn₁ conn₂ (Table.of_get?_del h₁).2 (Table.of_get?_del h₂).2
    · intro c' session' hc' hauth'
      obtain ⟨hne, hc'⟩ := Table.of_get?_del hc'
      obtain ⟨npid, hentry⟩ := h.registered c' session' hc' hauth'
      refine ⟨npid, ?_⟩
      cases hauth : session.authenticated with
      | false => simpa [SharedState.entry, cleanup_clients, hauth] using hentry
      | true =>
        -- the entry that is erased is that of another account
        have hid : session'.info.userId ≠ session.info.userId := fun heq =>
          hne (h.atMostOne c' c _ _ hc' hc hauth' hauth heq)
        simp only [cleanup_entry env s.shared hauth, Function.update_of_ne hid]
        exact hentry

/-- A step in which no two logins race does to the directory what it should. -/
theorem noRace_stepOk (h : NoRaceInv s) (hinv : LoginInv s) {e : LoginEvent}
    (hrace : NoRace sv s e) : LoginStepOk sv s e := by
  cases e with
  | connect => trivial
  | register c => trivial
  | check c req env =>
    cases req with
    | none => trivial
    | some req =>
      intro session user c' conn' hc hcheck hbanned hc' hauth hid
      have honline : (s.shared.clients.get? user.userId).isSome = true := by
        by_contra hoff
        exact h.accepted hinv hrace hc ⟨hcheck, hbanned, by simpa using hoff⟩ hc' hauth hid.symm
      unfold loginCheck
      simp only [hcheck, hbanned, honline, Bool.false_eq_true, if_false, if_true]
  | disconnect c env =>
    intro uid entry hentry hsend
    unfold LoginServer.step
    simp only
    split
    · rename_i session hc
      rw [cleanup_clients]
      split
      · rename_i hauth
        obtain ⟨npid, hown⟩ := h.registered c session hc hauth
        have hne : uid ≠ session.info.userId := by
          rintro rfl
          simp only [SharedState.entry, hentry, Option.map_some, Option.some.injEq,
            Prod.mk.injEq] at hown
          exact hsend hown.2
        exact (Table.get?_del_ne hne).trans hentry
      · exact hentry
    · exact hentry

/-- After a race two connections have the account. -/
theorem race_not_atMostOne (hinv : LoginInv s) {e : LoginEvent} (hrace : ¬ NoRace sv s e) :
    ¬ AtMostOne (s.step sv e) := by
  cases e with
  | connect => exact absurd trivial hrace
  | register c => exact absurd trivial hrace
  | disconnect c env => exact absurd trivial hrace
  | check c req env =>
    cases req with
    | none => exact absurd trivial hrace
    | some req =>
      intro hone
      refine hrace fun session user c' conn' p hc ha hc' hp hid => ?_
      obtain ⟨hauth, hid'⟩ := hinv.pending c' conn' p hc' hp
      have hne : c' ≠ c := by
        rintro rfl
        obtain rfl := Option.some.inj (hc.symm.trans hc')
        cases hp
      -- the check authenticates the connection before it has its entry
      have hstep : s.step sv (.check c (some req) env) = { s with
          conns := s.conns.set c ⟨adoptUser s.shared session user req.titleId,
            some ⟨user, req, getRelationships s.db user.userId env.readOk⟩⟩ } := by
        simp only [LoginServer.step, hc, ha.loginCheck]
      rw [hstep] at hone
      exact hne (hone c' c conn' _ ((Table.get?_set_ne hne).trans hc') Table.get?_set_self hauth rfl
        (hid'.trans hid))

/-- **Logins.** Along a run no account has two connections, a login to an account that has one is
answered `LoginAlreadyLoggedIn`, and a connection that goes leaves the entries of others, if and
only if no login is let through while another connection is in the middle of one to the same
account. -/
theorem logins_ok_iff (sv : Services) (db : Database) (events : List LoginEvent) :
    (∀ n, AtMostOne (loginServerAfter sv db events n) ∧
      ∀ hn : n < events.length, LoginStepOk sv (loginServerAfter sv db events n) events[n]) ↔
      ∀ n (hn : n < events.length), NoRace sv (loginServerAfter sv db events n) events[n] := by
  have hinit : LoginInv ({ db } : LoginServer) := ⟨fun _ _ => rfl, fun _ _ _ hc => by cases hc⟩
  have hinv : ∀ n, LoginInv (loginServerAfter sv db events n) :=
    runAt_inv hinit (fun s e h => step_loginInv h e) events
  constructor
  · -- a race shows in the state after it
    intro hok n hn
    by_contra hrace
    have hnext := (hok (n + 1)).1
    unfold loginServerAfter at hnext
    rw [runAt_succ _ hn] at hnext
    exact race_not_atMostOne (hinv n) hrace hnext
  · intro hrace n
    have hstart : NoRaceInv ({ db } : LoginServer) := by
      constructor
      · intro c c' conn conn' hc
        cases hc
      · intro c session hc
        cases hc
    have hboth := runAt_guard (P := fun s => NoRaceInv s ∧ LoginInv s) (G := NoRace sv)
      ⟨hstart, hinit⟩ (fun s e h hG => ⟨step_noRaceInv h.1 h.2 hG, step_loginInv h.2 e⟩) hrace n
    exact ⟨hboth.1.atMostOne, fun hn => noRace_stepOk hboth.1 hboth.2 (hrace n hn)⟩

/-- Alice logs in on two connections at once. -/
theorem alice_logs_in_twice :
    ¬ ∀ sv db events n, AtMostOne (loginServerAfter sv db events n) ∧
      ∀ hn : n < events.length, LoginStepOk sv (loginServerAfter sv db events n) events[n] := by
  intro h
  let login : LoginRequest := ⟨"alice", "alice", "", "", "", false⟩
  let events : List LoginEvent :=
    [.connect, .connect, .check 0 (some login) .plain, .check 1 (some login) .plain]
  let s := loginServerAfter .plain aliceAndBob events 4
  have hboth : ∀ c < 2, ((s.conns.get? c).map fun conn =>
      (conn.session.authenticated, conn.session.info.userId)) = some (true, 1) := by decide
  obtain ⟨conn, hc, heq⟩ := Option.map_eq_some_iff.mp (hboth 0 (by decide))
  obtain ⟨conn', hc', heq'⟩ := Option.map_eq_some_iff.mp (hboth 1 (by decide))
  have hone := (h .plain aliceAndBob events 4).1 0 1 conn conn' hc hc' (congrArg Prod.fst heq)
    (congrArg Prod.fst heq') ((congrArg Prod.snd heq).trans (congrArg Prod.snd heq').symm)
  cases hone

end ShadNet
