import ShadNet.Spec.Invitation
import ShadNet.Spec.Server

/-!
# Invitations as they are pushed

`SendSessionInvitationEvent`: what goes to the recipients of a `sessionInvitation` event who are
online.
-/

namespace ShadNet

open Lib

/-- One `WebApiPushEvent` of the service `sessionInvitation`: whom it goes to, on which connection, and
what is in it. An empty body is no object. -/
structure InvitationPush where
  toId : ℤ
  conn : ConnId
  dataType : String
  data : Option JsonObject
  fromNpid : String
  toNpid : String
  extd : List (String × String)

/-- Which invitation the push is about, as its recipient reads it. -/
def InvitationPush.invitationId (p : InvitationPush) : Option String := p.extd.lookup "invitationId"

/-- The key-value pairs of an event to `toId`. -/
def invitationExtd (e : InvitationEvent) (fromPlatform thisInvitationId : String) (toId : ℤ) :
    List (String × String) :=
  [("fromAccountId", toString e.fromUserId)] ++
  (if fromPlatform ≠ "" then [("fromPlatform", fromPlatform)] else []) ++
  [("toAccountId", toString toId)] ++
  (if e.sessionId ≠ "" then [("sessionId", e.sessionId)] else []) ++
  (if thisInvitationId ≠ "" then [("invitationId", thisInvitationId)] else []) ++
  (if e.validUntil ≠ 0 then [("validUntil", toString e.validUntil)] else [])

/-- The body, which only an invitation has. -/
def invitationBody (r : WebRequest) (e : InvitationEvent) (thisInvitationId : String) :
    Option JsonObject :=
  if thisInvitationId ≠ "" then
    some (JsonObject.ofFields
      [(true, "invitationId", .str thisInvitationId),
        (e.sessionId ≠ "", "sessionId", .str e.sessionId),
        (true, "receivedDate", .str (r.isoUtc r.now)),
        (e.validUntil ≠ 0, "expired", .bool (e.validUntil < r.now)),
        (true, "fromUser", .obj [("accountId", jsonId e.fromUserId), ("onlineId", .str e.fromNpid)])])
  else none

/-- What goes to `toId`, if he is online. -/
def invitationPush (r : WebRequest) (clients : Table ℤ ClientEntry) (e : InvitationEvent) (toId : ℤ) :
    Option InvitationPush :=
  (clients.get? toId).map fun it =>
    let fromPlatform := ((clients.get? e.fromUserId).map (·.platform)).getD ""
    let thisInvitationId := (e.invitationIds.get? toId).getD ""
    { toId
      conn := it.send
      dataType := e.dataType
      data := invitationBody r e thisInvitationId
      fromNpid := e.fromNpid
      toNpid := it.npid
      extd := invitationExtd e fromPlatform thisInvitationId toId }

/-- To each of `toUserIds` who is online, in their order. -/
def sendSessionInvitationEvent (r : WebRequest) (clients : Table ℤ ClientEntry) (e : InvitationEvent) :
    List InvitationPush := e.toUserIds.filterMap (invitationPush r clients e)

/-- What an invitation request pushes. -/
def invitePushes (r : WebRequest) (clients : Table ℤ ClientEntry) (sessionId : String)
    (parts : Option (List MultipartPart)) (w : Web) : List InvitationPush :=
  match (handleSessionInvite r sessionId parts w).event with
  | none => []
  | some e => sendSessionInvitationEvent r clients e

/-- The accounts that a request looks up are those of the database. -/
structure WebRequest.On (r : WebRequest) (db : Database) : Prop where
  byName : r.getUserId = ShadNet.getUserId db
  byId : r.getUsername = ShadNet.getUsername db

end ShadNet
