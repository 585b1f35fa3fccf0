import ShadNet.Spec.Server

/-!
# Logins in two steps

`CmdLogin` takes `clientsLock` twice: to see whether the account is online, and later to put its
entry in. Each connection has a thread of its own, so other connections may log in or go between
the two; the connection itself answers nothing else until its login is done, and its cleanup
waits as well. Only connections whose cleanup has not run are here: what is served on one after its
cleanup is in `Server.step`.
-/

namespace ShadNet

open Lib

/-- A connection, and the login that it is in the middle of. -/
structure LoginConn where
  session : ClientSession := {}
  pending : Option PendingLogin := none

/-- The server as its login command sees it, whose lock sections are steps of their own. -/
structure LoginServer where
  db : Database
  shared : SharedState := {}
  conns : Table ConnId LoginConn := ∅
  nextConn : ConnId := 0

/-- What happens on the connections; a login comes in two steps. -/
inductive LoginEvent where
  | connect
  /-- the command, up to its reply -/
  | check (c : ConnId) (req : Option LoginRequest) (env : Env)
  /-- the rest of it -/
  | register (c : ConnId)
  | disconnect (c : ConnId) (env : Env)

/-- The check reads `clients` and lets a login wait; the registration puts it in, whoever has come
in between. -/
def LoginServer.step (sv : Services) (s : LoginServer) : LoginEvent → LoginServer
  | .connect => { s with conns := s.conns.set s.nextConn {}, nextConn := s.nextConn + 1 }
  | .check c req env =>
    match s.conns.get? c with
    | some ⟨session, none⟩ =>
      -- a login that is let through has its connection authenticated at once
      match loginCheck sv env ⟨s.db, s.shared, session⟩ req with
      | .error _ => s
      | .ok (session, p) => { s with conns := s.conns.set c ⟨session, some p⟩ }
    | _ => s
  | .register c =>
    match s.conns.get? c with
    | some ⟨session, some p⟩ =>
      { s with shared := loginRegister s.shared c p, conns := s.conns.set c ⟨session, none⟩ }
    | _ => s
  | .disconnect c env =>
    match s.conns.get? c with
    | some ⟨session, none⟩ =>
      { s with shared := cleanupOnDisconnect env session s.shared, conns := s.conns.del c }
    | _ => s

/-- The server after the first `n` events, from a start on an existing database. -/
def loginServerAfter (sv : Services) (db : Database) (events : List LoginEvent) (n : ℕ) :
    LoginServer :=
  runAt (LoginServer.step sv) { db } events n

end ShadNet
