import ShadNet.Spec.WebSession

/-!
# A user's sessions and his game connection

The HTTP thread serves `HandleSessionCreate` and `HandleSessionJoin` in two steps: what comes before
`sessionsLock`, with the look into `clients`, and the insertion. The thread of the game connection
runs `CleanupOnDisconnect` in two as well: `PurgeUserFromSessions`, then the removal from
`clients`. The steps of one user come in any order, with whatever others do to the table between
them.
-/

namespace ShadNet

open Lib

/-- The server as far as one user's sessions go: his platform while he is in `clients`, whether his
disconnect has purged his sessions, and his requests that wait for `sessionsLock`. -/
structure UserSessions where
  online : Option String
  purged : Bool
  waiting : List SessionOp
  sessions : Sessions

/-- What happens to the sessions of one user, in the order of the locks: his requests are checked
and put in by steps of their own, and a disconnect purges before it takes the user off the list of
those online. -/
inductive UserEvent where
  | login (platform : String)
  | checkCreate (r : Request) (parts : Option (List MultipartPart))
  | checkJoin (r : Request) (sessionId : String) (indexItem priorityItem : Option String)
  | insert (i : ℕ)
  | purge (order : Order String)
  | remove
  | others (op : SessionOp)

/-- A request of the user as it goes on after it has looked into `clients`. -/
def Request.checkedFor (r : Request) (user : AuthResult) (online : Option String) : Request :=
  { r with
    auth := .ok user
    clients := fun userId => if userId = user.userId then online else r.clients userId }

/-- Whether a create gets to the insertion; its checks do not look at the table. -/
def passesCreate (r : Request) (parts : Option (List MultipartPart)) : Bool :=
  decide ((handleSessionCreate r parts ∅).response.status = .ok)

/-- Whether a join gets to the table. -/
def passesJoin (user : AuthResult) (r : Request) (indexItem : Option String) : Bool :=
  let index := (indexItem.bind toInt?).getD 0
  decide (0 ≤ index ∧ index ≤ 63) && (r.clients user.userId).isSome

/-- The user who enters a session by the operation, if it is a create or a join. -/
def SessionOp.enteringUser : SessionOp → Option ℤ
  | .create r _ | .join r _ _ _ =>
    match r.auth with
    | .ok auth => some auth.userId
    | .error _ => none
  | _ => none

variable (user : AuthResult)

/-- A request that has passed its check waits, and is put in later on the sessions as they are then.
-/
def UserSessions.step (s : UserSessions) : UserEvent → UserSessions
  | .login platform =>
    if s.online.isNone then { s with online := some platform, purged := false } else s
  | .checkCreate r parts =>
    let r := r.checkedFor user s.online
    if passesCreate r parts then { s with waiting := s.waiting ++ [.create r parts] } else s
  | .checkJoin r sessionId indexItem priorityItem =>
    let r := r.checkedFor user s.online
    if passesJoin user r indexItem
    then { s with waiting := s.waiting ++ [.join r sessionId indexItem priorityItem] }
    else s
  | .insert i =>
    match s.waiting[i]? with
    | none => s
    | some op => { s with waiting := s.waiting.eraseIdx i, sessions := op.apply s.sessions }
  | .purge order =>
    if s.online.isSome && !s.purged then
      { s with
        purged := true
        sessions := (purgeUserFromSessions order user.userId s.sessions).1 }
    else s
  | .remove => if s.purged then { s with online := none } else s
  | .others op =>
    -- the user's own creates and joins come in two steps
    if op.enteringUser = some user.userId then s else { s with sessions := op.apply s.sessions }

/-- The server after the first `n` steps, from an empty one. -/
def userSessionsAfter (es : List UserEvent) (n : ℕ) : UserSessions :=
  runAt (UserSessions.step user) ⟨none, false, [], ∅⟩ es n

end ShadNet
