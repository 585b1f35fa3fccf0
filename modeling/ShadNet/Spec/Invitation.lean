import ShadNet.Spec.SessionViews

/-!
# Invitations

The handlers of `webapi_routes_session.cpp` for invitations, and all of the Session Web API as one
step on what `sessionsLock` guards.
-/

namespace ShadNet

open Lib

/-- The data of an invitation may have 1 MiB. -/
def kInvitationDataMax : ℕ := 1024 * 1024

/-- The code of the error for an invitation that is no longer good. -/
def invitationExpired : ℕ := 2115584

/-- 0: invitations do not expire. -/
def invitationTtlMs : ℤ := 0

/-- The answer where there is no such invitation, or none that the caller may see. -/
def invitationNotFound : Response :=
  jsonError .notFound webapiResourceNotFound "The invitation does not exist"

/-- The answer for the data of an invitation that is used or expired. -/
def invitationUsed : Response :=
  jsonError .notFound invitationExpired "Invitation is expired or data has been used"

/-- An invitation with `validUntil` 0 is good for ever. -/
def Invitation.expired (now : ℤ) (inv : Invitation) : Bool :=
  decide (inv.validUntil ≠ 0 ∧ inv.validUntil < now)

/-- Who has sent the invitation. -/
def fromUser (inv : Invitation) : Json :=
  .obj [("accountId", jsonId inv.fromUserId), ("onlineId", .str inv.fromNpid)]

/-! ## Sending -/

/-- The push event that goes to the recipients, with the id of each one's invitation. -/
structure InvitationEvent extends SessionInvitationEvent where
  invitationIds : Table ℤ String
  validUntil : ℤ

/-- What the entries of `to` resolve to, an account id or an online id each; unknown ones are
skipped. -/
def inviteRecipients (r : WebRequest) (obj : JsonObject) : List (ℤ × String) :=
  (obj.value "to").toArray.filterMap fun v =>
    let entry := JsonValue.toString (some v)
    match toLongLong? entry with
    | some 0 | none => (r.getUserId entry).map fun uid => (uid, entry)
    | some uid => some (uid, (r.getUsername uid).getD "")

/-- One invitation for each recipient. -/
def invitationsFor (r : WebRequest) (auth : AuthResult) (sessionId : String) (s : Session)
    (message : String) (dataPart : Option (List UInt8)) (recipients : List (ℤ × String)) :
    List Invitation :=
  recipients.zipIdx.map fun (recipient, i) =>
    { invitationId := "002-" ++ r.uuids i
      sessionId
      availablePlatforms := s.availablePlatforms
      fromUserId := auth.userId
      fromNpid := auth.npid
      toUserId := recipient.1
      toNpid := recipient.2
      message
      invitationData := dataPart.getD []
      hasInvitationData := dataPart.isSome
      createdAt := r.now
      updatedAt := r.now
      validUntil := if 0 < invitationTtlMs then r.now + invitationTtlMs else 0
      used := false }

/-- The table after the request, its response and its event. -/
structure InviteOutcome where
  web : Web
  response : Response
  event : Option InvitationEvent

/-- `POST /v1/sessions/<id>/invitations` -/
def handleSessionInvite (r : WebRequest) (sessionId : String) (parts : Option (List MultipartPart))
    (w : Web) : InviteOutcome :=
  match r.auth with
  | .error e => ⟨w, e, none⟩
  | .ok auth =>
  match parts with
  | none => ⟨w,
      jsonError .badRequest webapiInvalidBody "Expected multipart/mixed body with a boundary", none⟩
  | some parts =>
  match partData parts "invitation-request" with
  | none => ⟨w,
      jsonError .badRequest webapiBodyParamRequired "Missing required invitation-request part", none⟩
  | some jsonPart =>
  let dataPart := partData parts "invitation-data"
  if kInvitationDataMax < (dataPart.getD []).length then
    ⟨w, jsonError .badRequest webapiTooLargeBody "invitation-data exceeds the 1 MiB limit", none⟩
  else
  match r.fromJson jsonPart with
  | some (.obj obj) =>
    let recipients := inviteRecipients r obj
    if recipients.isEmpty then ⟨w, jsonError .badRequest webapiInvalidNumElems
      "invitation-request 'to' must list at least one account ID", none⟩
    else
    match w.sessions.get? sessionId with
    | none => ⟨w, jsonError .notFound webapiResourceNotFound "The session does not exist", none⟩
    | some s =>
    let invitations := invitationsFor r auth sessionId s
      (JsonValue.toString (JsonObject.value obj "message")) dataPart recipients
    { web := { w with
        invitations := invitations.foldl (fun t inv => t.set inv.invitationId inv) w.invitations }
      response := noContent
      event := some
        { dataType := "np:service:invitation"
          fromUserId := auth.userId
          fromNpid := auth.npid
          toUserIds := recipients.map (·.1)
          sessionId
          invitationIds := invitations.foldl (fun t inv => t.set inv.toUserId inv.invitationId) ∅
          validUntil := if 0 < invitationTtlMs then r.now + invitationTtlMs else 0 } }
  | _ => ⟨w, jsonError .badRequest webapiInvalidBody "Malformed invitation-request JSON", none⟩

/-! ## Reading -/

/-- `sn` as an invitation to it shows it. -/
def invitedSession (r : WebRequest) (sn : Session) : JsonObject :=
  let member := fun m : SessionMember => Json.obj
    [("accountId", jsonId m.userId), ("onlineId", .str m.npid), ("platform", .str m.platform)]
  JsonObject.ofFields
    [(true, "sessionId", .str sn.sessionId),
      (true, "sessionType", .str sn.sessionType),
      (true, "sessionPrivacy", .str sn.sessionPrivacy),
      (true, "sessionMaxUser", jsonInt sn.sessionMaxUser),
      (true, "sessionName", .str (localText r sn.sessionName sn.localizedSessionNames)),
      (true, "sessionStatus", .str (localText r sn.sessionStatus sn.localizedSessionStatus)),
      (true, "sessionCreator",
        .obj [("accountId", jsonId sn.ownerUserId), ("onlineId", .str sn.ownerNpid)]),
      (true, "sessionCreateTimestamp", jsonInt sn.createdAt),
      (r.fields.contains "session.sessionLockFlag", "sessionLockFlag", .bool sn.sessionLockFlag),
      (r.fields.contains "members", "members", .arr (sn.members.map member))]

/-- Whether the linked session is asked for. -/
def wantsSession (r : WebRequest) : Bool :=
  r.fields.contains "session" || r.fields.contains "session.sessionLockFlag"

/-- `GET /v1/users/<key>/invitations/<id>` -/
def handleInvitationGet (r : WebRequest) (invitationId : String) (w : Web) : WebResponse :=
  match r.auth with
  | .error e => .json e
  | .ok auth =>
  let isDefault := r.fields.isEmpty || r.fields.contains "@default"
  match w.invitations.get? invitationId with
  | none => .json invitationNotFound
  | some inv =>
  if inv.toUserId ≠ auth.userId then .json invitationNotFound
  else
  -- the linked session is left out once it is gone
  let session := if wantsSession r then w.sessions.get? inv.sessionId else none
  .ok (JsonObject.ofFields
    [(isDefault, "receivedDate", .str (r.isoUtc inv.createdAt)),
      (isDefault, "expired", .bool (inv.expired r.now)),
      (isDefault, "usedFlag", .bool inv.used),
      (isDefault, "message", .str inv.message),
      (isDefault, "availablePlatforms", jsonStrings inv.availablePlatforms),
      (isDefault, "fromUser", fromUser inv),
      (session.isSome, "session",
        .obj ((session.map (invitedSession r)).getD []))])

/-- `GET /v1/users/<key>/invitations/<id>/invitationData` -/
def handleInvitationData (r : WebRequest) (invitationId : String) (w : Web) : WebResponse :=
  match r.auth with
  | .error e => .json e
  | .ok auth =>
  let callerPlatform := (r.clients auth.userId).getD ""
  match w.invitations.get? invitationId with
  | none => .json invitationNotFound
  | some inv =>
  if inv.toUserId ≠ auth.userId then .json invitationNotFound
  else if inv.expired r.now || inv.used then .json invitationUsed
  else if platformExcluded callerPlatform inv.availablePlatforms then
    .json (jsonError .notFound webapiResourceNotFound "The platform cannot use this session")
  else if inv.hasInvitationData then .octets inv.invitationData
  else
  match w.sessions.get? inv.sessionId with
  | none => .json
      (jsonError .notFound webapiResourceNotFound "The linked session does not exist")
  | some s => .octets (if s.sessionData.isEmpty then s.changeableSessionData else s.sessionData)

/-- `GET /v1/users/<key>/invitations` -/
def handleInvitationList (r : WebRequest) (w : Web) : WebResponse :=
  match r.auth with
  | .error e => .json e
  | .ok auth =>
  let entry := fun inv : Invitation => Json.obj (JsonObject.ofFields
    [(true, "invitationId", .str inv.invitationId),
      (true, "usedFlag", .bool inv.used),
      (r.fields.contains "sessionId", "sessionId", .str inv.sessionId),
      (r.fields.contains "receivedDate", "receivedDate", .str (r.isoUtc inv.createdAt)),
      (r.fields.contains "expired", "expired", .bool (inv.expired r.now)),
      (r.fields.contains "updateDate", "updateDate", .str (r.isoUtc inv.updatedAt)),
      (r.fields.contains "fromUser", "fromUser", fromUser inv)])
  let arr := (Table.iterate r.order w.invitations).filterMap fun e =>
    if e.2.toUserId = auth.userId then some (entry e.2) else none
  .ok [("invitations", .arr arr), ("size", jsonInt arr.length), ("start", jsonInt 0),
    ("totalResult", jsonInt arr.length)]

/-! ## Using -/

/-- `PUT /v1/users/<key>/invitations/<id>` -/
def handleInvitationUse (r : WebRequest) (invitationId : String) (body : List UInt8) (w : Web) :
    Web × Response :=
  match r.auth with
  | .error e => (w, e)
  | .ok auth =>
  match r.fromJson body with
  | some (.obj obj) =>
    if JsonObject.value obj "usedFlag" ≠ some (.bool true) then
      (w, jsonError .badRequest webapiInvalidBodyParam "usedFlag must be true")
    else
    match w.invitations.get? invitationId with
    | none => (w, invitationNotFound)
    | some inv =>
    if inv.toUserId ≠ auth.userId then (w, invitationNotFound)
    else if inv.expired r.now || inv.used then (w, invitationUsed)
    else
      let inv := { inv with used := true, updatedAt := r.now }
      ({ w with invitations := w.invitations.set invitationId inv }, noContent)
  | _ => (w, jsonError .badRequest webapiInvalidBody "Malformed JSON body")

/-! ## The Web API as a whole -/

/-- The `GET` requests. -/
inductive WebGet where
  | session (sessionId : String)
  | members (sessionId : String)
  | sessionData (sessionId : String)
  | userSessions (userKey : String)
  | usersSessions
  | friendsSessions
  | invitation (invitationId : String)
  | invitationData (invitationId : String)
  | invitations

/-- A GET is answered on the tables as they are, and leaves them so. -/
def WebGet.respond (r : WebRequest) (w : Web) : WebGet → WebResponse
  | .session sessionId => handleSessionGet r sessionId w
  | .members sessionId => handleSessionMembers r sessionId w
  | .sessionData sessionId => handleSessionGetData r sessionId w
  | .userSessions userKey => handleSessionList r userKey w
  | .usersSessions => handleMultiUserSessions r w
  | .friendsSessions => handleFriendsSessions r w
  | .invitation invitationId => handleInvitationGet r invitationId w
  | .invitationData invitationId => handleInvitationData r invitationId w
  | .invitations => handleInvitationList r w

/-- The requests of all kinds. -/
inductive WebCall where
  | get (g : WebGet)
  | create (parts : Option (List MultipartPart))
  | update (sessionId : String) (body : List UInt8)
  | delete (sessionId : String)
  | join (sessionId : String) (indexItem priorityItem : Option String)
  | leave (sessionId memberKey : String)
  | invite (sessionId : String) (parts : Option (List MultipartPart))
  | use (invitationId : String) (body : List UInt8)

/-- What a handler that changes the session table does to all of it. -/
def Web.withOutcome (w : Web) (o : Outcome) : Web × WebResponse :=
  ({ w with sessions := o.sessions }, .json o.response)

/-- Each request goes to its handler, with the tables that it may change. -/
def WebCall.serve (r : WebRequest) (w : Web) : WebCall → Web × WebResponse
  | .get g => (w, g.respond r w)
  | .create parts => w.withOutcome (handleSessionCreate r.toRequest parts w.sessions)
  | .update sessionId body => w.withOutcome (handleSessionUpdate r.toRequest sessionId body w.sessions)
  | .delete sessionId => w.withOutcome (handleSessionDelete r.toRequest sessionId w.sessions)
  | .join sessionId indexItem priorityItem =>
    w.withOutcome (handleSessionJoin r.toRequest sessionId indexItem priorityItem w.sessions)
  | .leave sessionId memberKey =>
    w.withOutcome (handleSessionLeave r.toRequest sessionId memberKey w.sessions)
  | .invite sessionId parts =>
    let o := handleSessionInvite r sessionId parts w
    (o.web, .json o.response)
  | .use invitationId body =>
    let o := handleInvitationUse r invitationId body w
    (o.1, .json o.2)

/-- A request, or the purge when a user's game connection ends. -/
inductive WebEvent where
  | request (r : WebRequest) (call : WebCall)
  | purge (order : Order String) (userId : ℤ)

/-- A request, or the purge of a user who goes offline. -/
def Web.step (w : Web) : WebEvent → Web
  | .request r call => (call.serve r w).1
  | .purge order userId => { w with sessions := (purgeUserFromSessions order userId w.sessions).1 }

/-- What `sessionsLock` guards after the first `n` events, from nothing. -/
def webAfter (es : List WebEvent) (n : ℕ) : Web := runAt Web.step ⟨∅, ∅⟩ es n

end ShadNet
