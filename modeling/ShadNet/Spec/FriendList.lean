import ShadNet.Lib.Mirror
import ShadNet.Lib.Run
import ShadNet.Spec.Notification

/-!
# The friend lists of clients

A client that is logged in keeps a list of its friends by their npids, with a flag that says who is
online. It starts with the list in the reply to its login, and goes by the notifications that come on
its connection from then on. A login and its reply are one step here.
-/

namespace ShadNet

open Lib

/-- What a notification says of the npid in it. -/
def Notification.message? : Notification → Option (Message String Bool)
  | .friendNew npid online => some ⟨npid, .put online⟩
  | .friendStatus npid online => some ⟨npid, .change online⟩
  | .friendLost npid => some ⟨npid, .drop⟩
  | .friendQuery _ => none
  | .webApiPushEvent .. => none

/-- What is told on a connection. -/
def told (c : ConnId) (sent : List Sent) : List (Message String Bool) :=
  (sent.filter fun m => m.conn = c).filterMap fun m => m.notification.message?

/-- The list that a client starts with. -/
def LoginReply.friendList (r : LoginReply) : Table String Bool :=
  r.friends.foldl (fun t f => t.set f.1 f.2) ∅

/-- The list that an event gives to the client on a connection, if it is a login of his that goes
through. -/
def Server.listGiven (sv : Services) (s : Server) (e : Event) (c : ConnId) : Option (Table String Bool) :=
  match e with
  | .request c' (.login req) env =>
    if c' ≠ c then none
    else match s.conns.get? c' with
      | none => none
      | some session =>
        match loginCheck sv env ⟨s.db, s.shared, session⟩ req with
        | .error _ => none
        | .ok (_, p) => some (loginReply s.shared p).friendList
  | _ => none

/-- The server, and the list of the client on each connection. -/
structure FriendLists where
  server : Server
  lists : ConnId → Table String Bool := fun _ => ∅

/-- The client takes the list that it is given, and hears what it is told. -/
def FriendLists.step (sv : Services) (w : FriendLists) (e : Event) : FriendLists where
  server := w.server.step sv e
  lists c := (told c (w.server.sent sv e)).foldl (fun t m => m.hear t)
    ((w.server.listGiven sv e c).getD (w.lists c))

/-- Server and lists after the first `n` events, from a start on an existing database. -/
def friendListsAfter (sv : Services) (db : Database) (events : List Event) (n : ℕ) : FriendLists :=
  runAt (FriendLists.step sv) { server := { db } } events n

end ShadNet
