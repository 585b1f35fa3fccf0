import ShadNet.Lib.Run
import ShadNet.Lib.Table
import ShadNet.Spec.Json
import ShadNet.Spec.Qt

/-!
# The Session Web API

The handlers of `webapi_routes_session.cpp` that change the session table. A handler gets what
it finds around the table (`Request`) and gives the new table, the HTTP response and the push
events it sends once the lock is released.
-/

namespace ShadNet

open Lib

/-- A member of a session. -/
structure SessionMember where
  userId : ℤ
  npid : String
  platform : String
  index : ℤ
  priority : ℤ
  joinedAt : ℤ

/-- A session of the web API. -/
structure Session where
  sessionId : String
  ownerUserId : ℤ
  ownerNpid : String
  sessionName : String
  sessionStatus : String
  localizedSessionNames : Table String String
  localizedSessionStatus : Table String String
  sessionType : String
  sessionPrivacy : String
  sessionMaxUser : ℤ
  availablePlatforms : List String
  npTitleId : String
  sessionLockFlag : Bool
  sendNotificationFlag : Bool
  sessionImage : List UInt8
  sessionData : List UInt8
  changeableSessionData : List UInt8
  members : List SessionMember
  createdAt : ℤ

/-- What `QHash::operator[]` builds for a key that is not there. -/
instance : Inhabited Session where
  default :=
    { sessionId := "", ownerUserId := 0, ownerNpid := "", sessionName := "", sessionStatus := ""
      localizedSessionNames := ∅, localizedSessionStatus := ∅, sessionType := ""
      sessionPrivacy := "", sessionMaxUser := 0, availablePlatforms := [], npTitleId := ""
      sessionLockFlag := false, sendNotificationFlag := false, sessionImage := []
      sessionData := [], changeableSessionData := [], members := [], createdAt := 0 }

/-- The sessions, under their ids. -/
abbrev Sessions := Table String Session

/-- The status codes that the web API answers with. -/
inductive StatusCode where
  | ok
  | noContent
  | badRequest
  | unauthorized
  | forbidden
  | notFound
  | internalServerError
deriving DecidableEq, Repr

/-- An HTTP response with an optional JSON body. -/
structure Response where
  status : StatusCode
  body : Option Json

/-- The answer with an error: its code and its message. -/
def jsonError (status : StatusCode) (code : ℕ) (message : String) : Response :=
  ⟨status, some (.obj [("error", .obj [("code", .num code), ("message", .str message)])])⟩

/-- The answer with a body. -/
def jsonOk (body : JsonObject) : Response := ⟨.ok, some (.obj body)⟩

/-- The answer without a body. -/
def noContent : Response := ⟨.noContent, none⟩

/-- The caller may not do this with the session. -/
def sessionNotPermitted : ℕ := 2114560

/-- The session has all the members that it may have. -/
def sessionFull : ℕ := 2114561

/-- Error code: only the creator may do this. -/
def sessionOnlyCreator : ℕ := 2114562

/-- Error code: only members may do this. -/
def sessionOnlyMember : ℕ := 2114563

/-- Error code: the user is not online. -/
def sessionUserNotOnline : ℕ := 2114564

/-- Error code: the user is a member already. -/
def sessionAlreadyJoined : ℕ := 2114565

/-- Error code: the body is too large. -/
def webapiTooLargeBody : ℕ := 2113539

/-- Error code: there is no such resource. -/
def webapiResourceNotFound : ℕ := 2113549

/-- The body cannot be read. -/
def webapiInvalidBody : ℕ := 2113920

/-- A parameter of the body has a value that is not known. -/
def webapiInvalidBodyParam : ℕ := 2113922

/-- A parameter of the body is missing. -/
def webapiBodyParamRequired : ℕ := 2113926

/-- The image of a session may have 160 KiB. -/
def kImageMax : ℕ := 160 * 1024

/-- The data of a session may have 1 MiB. -/
def kDataMax : ℕ := 1024 * 1024

/-- The changeable data of a session may have 1 KiB. -/
def kChangeableMax : ℕ := 1024

/-- Who a request comes from. -/
structure AuthResult where
  userId : ℤ
  npid : String

/-- What a request carries or finds outside the session table: the outcome of `Authenticate`,
the platform of each online user, the accounts, the JSON parser, a new UUID, the time and the
order in which the table is iterated. -/
structure Request where
  qt : Qt
  auth : Except Response AuthResult
  clients : ℤ → Option String
  getUserId : String → Option ℤ
  fromJson : List UInt8 → Option Json
  uuid : String
  now : ℤ
  order : Order String

/-- A `sessionInvitation` push event, before it is sent to those of `toUserIds` who are
online. -/
structure SessionInvitationEvent where
  dataType : String
  fromUserId : ℤ
  fromNpid : String
  toUserIds : List ℤ
  sessionId : String

/-- What a handler leaves behind. -/
structure Outcome where
  sessions : Sessions
  response : Response
  events : List SessionInvitationEvent

/-- The request is refused: nothing happens. -/
def Outcome.refused (sessions : Sessions) (response : Response) : Outcome :=
  ⟨sessions, response, []⟩

/-- `0` when `userId` may change or delete the session. -/
def sessionPermissionError (s : Session) (userId : ℤ) : ℕ :=
  if s.sessionType = "owner-bind" then
    if s.ownerUserId = userId then 0 else sessionOnlyCreator
  else if s.members.any (fun m => m.userId = userId) then 0 else sessionOnlyMember

/-- The refusal with the sentence for its code. -/
def sessionPermissionResponse (err : ℕ) : Response :=
  jsonError .forbidden err
    (if err = sessionOnlyCreator
      then "Only the session creator is permitted to perform this operation"
      else "Only session members are permitted to perform this operation")

/-- Takes `(userId, index)` out of the session that holds it. An empty id reads as none
found. -/
def leaveSessionAtIndex (order : Order String) (sessions : Sessions) (userId index : ℤ) :
    Sessions :=
  let here := fun m : SessionMember => decide (m.userId = userId ∧ m.index = index)
  match (sessions.inOrder order).find? fun e => decide (e.1 ≠ "") && e.2.members.any here with
  | none => sessions
  | some (leaveId, s) =>
    let wasOwner := s.ownerUserId = userId
    match s.members.eraseP here with
    | [] => sessions.del leaveId
    | first :: rest =>
      -- an `owner-bind` session goes with its owner, any other passes to the oldest member
      if s.sessionType = "owner-bind" ∧ wasOwner then sessions.del leaveId
      else if wasOwner then
        sessions.set leaveId { s with
          members := first :: rest, ownerUserId := first.userId, ownerNpid := first.npid }
      else sessions.set leaveId { s with members := first :: rest }

/-- `ResolveTarget`: an account id, an online id or `me`. -/
def resolveTarget (r : Request) (auth : AuthResult) (userKey : String) : Option ℤ :=
  if r.qt.eqNoCase userKey "me" || r.qt.eqNoCase userKey auth.npid then some auth.userId
  else match toLongLong? userKey with
    | some v => some v
    | none => r.getUserId userKey

/-! ## Create -/

/-- A part of a `multipart/mixed` body. -/
structure MultipartPart where
  contentType : List UInt8
  contentDescription : List UInt8
  data : List UInt8

/-- The data of the last part with the description. -/
def partData (parts : List MultipartPart) (description : String) : Option (List UInt8) :=
  (parts.reverse.find? fun p => p.contentDescription = toUtf8 description).map (·.data)

/-- The texts of an object of localized texts. -/
def localized (o : JsonObject) : Table String String :=
  o.foldl (fun t e => t.set e.1 (JsonValue.toString (some e.2))) ∅

/-- The texts of an array; what is no text counts as empty. -/
def stringArray (v : JsonValue) : List String := v.toArray.map fun j => JsonValue.toString (some j)

/-- `parts` is the split body, if the content type names a boundary. -/
def handleSessionCreate (r : Request) (parts : Option (List MultipartPart)) (sessions : Sessions) :
    Outcome :=
  match r.auth with
  | .error e => .refused sessions e
  | .ok auth =>
  match parts with
  | none => .refused sessions
      (jsonError .badRequest webapiInvalidBody "Expected multipart/mixed body with a boundary")
  | some parts =>
  match partData parts "session-request" with
  | none => .refused sessions
      (jsonError .badRequest webapiBodyParamRequired "Missing required multipart part")
  | some jsonPart =>
  let imagePart := (partData parts "session-image").getD []
  let dataPart := (partData parts "session-data").getD []
  let changeablePart := (partData parts "changeable-session-data").getD []
  if kImageMax < imagePart.length ∨ kDataMax < dataPart.length ∨
      kChangeableMax < changeablePart.length then
    .refused sessions
      (jsonError .badRequest webapiTooLargeBody "Multipart part exceeds the size limit")
  else
  match r.fromJson jsonPart with
  | some (.obj obj) =>
    let obj : JsonObject := obj
    let sessionType := (obj.value "sessionType").toString
    let sessionPrivacy := (obj.value "sessionPrivacy").toString
    let sessionMaxUser := (obj.value "sessionMaxUser").toInt 0
    let platforms := stringArray (obj.value "availablePlatforms")
    if (sessionType ≠ "owner-bind" ∧ sessionType ≠ "owner-migration") ∨ sessionMaxUser ≤ 0 ∨
        platforms = [] then
      .refused sessions
        (jsonError .badRequest webapiInvalidBodyParam "Invalid or missing session-request field")
    else
    match r.clients auth.userId with
    | none => .refused sessions
        (jsonError .forbidden sessionUserNotOnline "The current user is not online")
    | some userPlatform =>
    if userPlatform ∉ platforms then
      .refused sessions (jsonError .badRequest webapiInvalidBodyParam
        "availablePlatforms must include the current user's platform")
    else
    let index := (obj.value "index").toInt 0
    let priority := (obj.value "priority").toInt 0
    let sessionId := "001-" ++ r.uuid
    let s : Session :=
      { sessionId
        ownerUserId := auth.userId
        ownerNpid := auth.npid
        sessionName := (obj.value "sessionName").toString
        sessionStatus := (obj.value "sessionStatus").toString
        localizedSessionNames := localized (obj.value "localizedSessionNames").toObject
        localizedSessionStatus := localized (obj.value "localizedSessionStatus").toObject
        sessionType
        sessionPrivacy := if sessionPrivacy = "" then "public" else sessionPrivacy
        sessionMaxUser
        availablePlatforms := platforms
        npTitleId := (obj.value "npTitleId").toString
        sessionLockFlag := (obj.value "sessionLockFlag").toBool false
        sendNotificationFlag := (obj.value "sendNotificationFlag").toBool false
        sessionImage := imagePart
        sessionData := dataPart
        changeableSessionData := changeablePart
        members := [⟨auth.userId, auth.npid, userPlatform, index, priority, r.now⟩]
        createdAt := r.now }
    { sessions := (leaveSessionAtIndex r.order sessions auth.userId index).set sessionId s
      response := jsonOk [("sessionId", .str sessionId)]
      events := if s.sendNotificationFlag
        then [⟨"np:service:session:game:join:to:member", auth.userId, auth.npid, [auth.userId],
          sessionId⟩]
        else [] }
  | _ => .refused sessions
      (jsonError .badRequest webapiInvalidBody "Malformed session-request JSON")

/-! ## Update and delete -/

/-- The answer where there is no such session. -/
def sessionNotFound : Response := jsonError .notFound webapiResourceNotFound "Session not found"

/-- A change made under a condition. -/
def Session.changeIf (c : Bool) (f : Session → Session) (s : Session) : Session :=
  if c then f s else s

/-- The fields that a `PUT` body replaces. -/
def updatedSession (s : Session) (obj : JsonObject) : Session :=
  let platforms := stringArray (obj.value "availablePlatforms")
  s
  |> .changeIf (obj.contains "sessionName" || obj.contains "localizedSessionNames") (fun s =>
    { s with
      sessionName := (obj.value "sessionName").toString
      localizedSessionNames := localized (obj.value "localizedSessionNames").toObject })
  |> .changeIf (obj.contains "sessionStatus" || obj.contains "localizedSessionStatus") (fun s =>
    { s with
      sessionStatus := (obj.value "sessionStatus").toString
      localizedSessionStatus := localized (obj.value "localizedSessionStatus").toObject })
  |> .changeIf (obj.contains "sessionPrivacy") (fun s =>
    { s with sessionPrivacy := (obj.value "sessionPrivacy").toString })
  |> .changeIf (obj.contains "sessionMaxUser") (fun s =>
    { s with sessionMaxUser := (obj.value "sessionMaxUser").toInt 0 })
  |> .changeIf (obj.contains "sessionLockFlag") (fun s =>
    { s with sessionLockFlag := (obj.value "sessionLockFlag").toBool false })
  |> .changeIf (obj.contains "availablePlatforms" && decide (platforms ≠ [])) (fun s =>
    { s with availablePlatforms := platforms })

/-- `HandleSessionUpdate`: the fields that the body has are written. -/
def handleSessionUpdate (r : Request) (sessionId : String) (body : List UInt8)
    (sessions : Sessions) : Outcome :=
  match r.auth with
  | .error e => .refused sessions e
  | .ok auth =>
  match r.fromJson body with
  | some (.obj obj) =>
    match sessions.get? sessionId with
    | none => .refused sessions sessionNotFound
    | some s =>
    let err := sessionPermissionError s auth.userId
    if err ≠ 0 then .refused sessions (sessionPermissionResponse err)
    else
    let s' := updatedSession s obj
    { sessions := sessions.set sessionId s'
      response := noContent
      events := if s'.sendNotificationFlag ∧ s'.sessionPrivacy ≠ s.sessionPrivacy
        then [⟨"np:service:session:game:update:to:member", auth.userId, auth.npid,
          s'.members.map (·.userId), sessionId⟩]
        else [] }
  | _ => .refused sessions
      (jsonError .badRequest webapiInvalidBody "Malformed session-request JSON")

/-- `HandleSessionDelete`: the session goes, with all its members. -/
def handleSessionDelete (r : Request) (sessionId : String) (sessions : Sessions) : Outcome :=
  match r.auth with
  | .error e => .refused sessions e
  | .ok auth =>
  match sessions.get? sessionId with
  | none => .refused sessions sessionNotFound
  | some s =>
  let err := sessionPermissionError s auth.userId
  if err ≠ 0 then .refused sessions (sessionPermissionResponse err)
  else ⟨sessions.del sessionId, noContent, []⟩

/-! ## Join -/

/-- How many members a session may have. -/
def maxUsers (s : Session) : ℤ :=
  if 0 < s.sessionMaxUser ∧ s.sessionMaxUser < 256 then s.sessionMaxUser else 256

/-- `index` and `priority` are the query items. -/
def handleSessionJoin (r : Request) (sessionId : String) (indexItem priorityItem : Option String)
    (sessions : Sessions) : Outcome :=
  match r.auth with
  | .error e => .refused sessions e
  | .ok auth =>
  let index := (indexItem.bind toInt?).getD 0
  let priority := (priorityItem.bind toInt?).getD 49
  if index < 0 ∨ 63 < index then
    .refused sessions
      (jsonError .badRequest webapiInvalidBodyParam "'index' must be in the range 0-63")
  else
  match r.clients auth.userId with
  | none => .refused sessions
      (jsonError .forbidden sessionUserNotOnline "The current user is not online")
  | some platform =>
  match sessions.get? sessionId with
  | none => .refused sessions sessionNotFound
  | some s =>
  match s.members.find? fun m => m.userId = auth.userId with
  | some m =>
    -- a member who joins again under his index only has his entry renewed
    if m.index ≠ index then
      .refused sessions (jsonError .forbidden sessionAlreadyJoined
        "Session has already been joined in another index")
    else
      let touched := s.members.replaceF fun m =>
        if m.userId = auth.userId then some { m with priority, joinedAt := r.now } else none
      ⟨sessions.set sessionId { s with members := touched }, noContent, []⟩
  | none =>
  if s.sessionLockFlag then
    .refused sessions (jsonError .forbidden sessionNotPermitted "The session is locked")
  else
  if maxUsers s ≤ s.members.length then
    .refused sessions (jsonError .forbidden sessionFull "The session is already full")
  else
  let left := leaveSessionAtIndex r.order sessions auth.userId index
  -- `sessions[sessionId]` would build an empty session if the id were gone
  let s := (left.get? sessionId).getD default
  let m : SessionMember := ⟨auth.userId, auth.npid, platform, index, priority, r.now⟩
  let s := { s with members := s.members ++ [m] }
  { sessions := left.set sessionId s
    response := noContent
    events := if s.sendNotificationFlag
      then [⟨"np:service:session:game:join:to:member", auth.userId, auth.npid,
        (s.members.map (·.userId)).filter (· ≠ auth.userId), sessionId⟩]
      else [] }

/-! ## Leave -/

/-- `RemoveMemberApplyOwner`: the session without `userId`, and whether its caller is to
delete it; nothing if `userId` is no member. -/
def removeMemberApplyOwner (sn : Session) (userId : ℤ) : Option (Session × Bool) :=
  if sn.members.any (fun m => m.userId = userId) then
    let wasOwner := sn.ownerUserId = userId
    match sn.members.eraseP fun m => m.userId = userId with
    | [] => some ({ sn with members := [] }, true)
    | first :: rest =>
      let sn' := { sn with members := first :: rest }
      if sn.sessionType = "owner-bind" ∧ wasOwner then some (sn', true)
      else if wasOwner then
        some ({ sn' with ownerUserId := first.userId, ownerNpid := first.npid }, false)
      else some (sn', false)
  else none

/-- The npid of a member, empty if there is none; the last entry under the id counts. -/
def memberNpid (members : List SessionMember) (userId : ℤ) : String :=
  ((members.reverse.find? fun m => m.userId = userId).map (·.npid)).getD ""

/-- `HandleSessionLeave`: a member goes, by himself or by whoever may do that. -/
def handleSessionLeave (r : Request) (sessionId memberKey : String) (sessions : Sessions) :
    Outcome :=
  match r.auth with
  | .error e => .refused sessions e
  | .ok auth =>
  match resolveTarget r auth memberKey with
  | none => .refused sessions noContent
  | some targetId =>
  -- leaving a session that is gone is no error
  match sessions.get? sessionId with
  | none => .refused sessions noContent
  | some sn =>
  if targetId ≠ auth.userId ∧ sn.ownerUserId ≠ auth.userId then
    .refused sessions
      (jsonError .forbidden sessionNotPermitted "Not permitted to access the session")
  else
  match removeMemberApplyOwner sn targetId with
  | none => .refused sessions noContent
  | some (sn', shouldDelete) =>
  { sessions := if shouldDelete then sessions.del sessionId else sessions.set sessionId sn'
    response := noContent
    events := if sn.sendNotificationFlag
      then [⟨"np:service:session:game:remove:to:member", targetId, memberNpid sn.members targetId,
        sn.members.map (·.userId), sessionId⟩]
      else [] }

/-- `PurgeUserFromSessions`: the sessions without `userId`, and the events to those who
remain. -/
def purgeUserFromSessions (order : Order String) (userId : ℤ) (sessions : Sessions) :
    Sessions × List SessionInvitationEvent :=
  let purged := sessions.filterMap fun _ sn =>
    match removeMemberApplyOwner sn userId with
    | none => some sn
    | some (sn', shouldDelete) => if shouldDelete then none else some sn'
  -- the first session in the iteration that has the user names the leaver
  let leaverNpid := ((sessions.inOrder order).findSome? fun e =>
    (e.2.members.find? fun m => m.userId = userId).bind fun m =>
      if m.npid = "" then none else some m.npid).getD ""
  let events := (sessions.inOrder order).filterMap fun (sid, sn) =>
    match removeMemberApplyOwner sn userId with
    | none => none
    | some (sn', _) =>
      if sn.sendNotificationFlag ∧ sn'.members ≠ [] then
        some ⟨"np:service:session:game:remove:to:member", userId, leaverNpid,
          sn'.members.map (·.userId), sid⟩
      else none
  (purged, events)

/-- Where the loop of `PurgeUserFromSessions` stands. An event is a session id with its recipients. -/
structure PurgeLoop where
  sessions : Sessions
  leaverNpid : String := ""
  events : List (String × List ℤ) := []
  toRemove : List String := []

/-- The body of the loop, at the entry of `sid`. -/
def PurgeLoop.visit (userId : ℤ) (l : PurgeLoop) (sid : String) : PurgeLoop :=
  match l.sessions.get? sid with
  | none => l
  | some sn =>
    let leaverNpid := if l.leaverNpid = ""
      then ((sn.members.find? fun m => m.userId = userId).map (·.npid)).getD ""
      else l.leaverNpid
    match removeMemberApplyOwner sn userId with
    | none => { l with leaverNpid }
    | some (sn', shouldDelete) =>
      let recipients := sn'.members.map (·.userId)
      { sessions := l.sessions.set sid sn'
        leaverNpid
        events := if sn.sendNotificationFlag ∧ recipients ≠ []
          then l.events ++ [(sid, recipients)] else l.events
        toRemove := if shouldDelete then l.toRemove ++ [sid] else l.toRemove }

/-- `PurgeUserFromSessions` as it runs: entries are edited while the table is iterated, what is to go
goes after that, and the events come last. -/
def purgeLoop (order : Order String) (userId : ℤ) (sessions : Sessions) :
    Sessions × List SessionInvitationEvent :=
  let l := ((sessions.inOrder order).map (·.1)).foldl (PurgeLoop.visit userId) { sessions }
  (l.toRemove.foldl Table.del l.sessions, l.events.map fun e =>
    ⟨"np:service:session:game:remove:to:member", userId, l.leaverNpid, e.2, e.1⟩)

/-! ## Runs -/

/-- The operations on the session table. -/
inductive SessionOp where
  | create (r : Request) (parts : Option (List MultipartPart))
  | join (r : Request) (sessionId : String) (indexItem priorityItem : Option String)
  | leave (r : Request) (sessionId memberKey : String)
  | update (r : Request) (sessionId : String) (body : List UInt8)
  | delete (r : Request) (sessionId : String)
  | purge (order : Order String) (userId : ℤ)

/-- What an operation makes of the sessions. -/
def SessionOp.apply (sessions : Sessions) : SessionOp → Sessions
  | .create r parts => (handleSessionCreate r parts sessions).sessions
  | .join r sessionId indexItem priorityItem =>
    (handleSessionJoin r sessionId indexItem priorityItem sessions).sessions
  | .leave r sessionId memberKey => (handleSessionLeave r sessionId memberKey sessions).sessions
  | .update r sessionId body => (handleSessionUpdate r sessionId body sessions).sessions
  | .delete r sessionId => (handleSessionDelete r sessionId sessions).sessions
  | .purge order userId => (purgeUserFromSessions order userId sessions).1

/-- The push events that an operation sends. -/
def SessionOp.events (sessions : Sessions) : SessionOp → List SessionInvitationEvent
  | .create r parts => (handleSessionCreate r parts sessions).events
  | .join r sessionId indexItem priorityItem =>
    (handleSessionJoin r sessionId indexItem priorityItem sessions).events
  | .leave r sessionId memberKey => (handleSessionLeave r sessionId memberKey sessions).events
  | .update r sessionId body => (handleSessionUpdate r sessionId body sessions).events
  | .delete r sessionId => (handleSessionDelete r sessionId sessions).events
  | .purge order userId => (purgeUserFromSessions order userId sessions).2

/-- The session table after the first `n` operations, from an empty one. -/
def sessionsAfter (ops : List SessionOp) (n : ℕ) : Sessions := runAt SessionOp.apply ∅ ops n

end ShadNet
