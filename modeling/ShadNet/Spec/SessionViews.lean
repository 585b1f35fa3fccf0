import Mathlib.Data.String.Basic
import ShadNet.Spec.WebSession

/-!
# What the Session Web API shows

The `GET` handlers of `webapi_routes_session.cpp` that read the session table. A private session is
shown to its participants and to those who hold an invitation to it.
-/

namespace ShadNet

open Lib

/-- An invitation to a session, as the server keeps it. -/
structure Invitation where
  invitationId : String
  sessionId : String
  fromUserId : ℤ
  fromNpid : String
  toUserId : ℤ
  toNpid : String
  message : String
  availablePlatforms : List String
  invitationData : List UInt8
  hasInvitationData : Bool
  createdAt : ℤ
  updatedAt : ℤ
  validUntil : ℤ
  used : Bool

/-- What `sessionsLock` guards. -/
structure Web where
  sessions : Sessions
  invitations : Table String Invitation

/-- What a handler finds besides: the query items, the accounts, the caller's friends, how a date is
written, and as many new UUIDs as it asks for. -/
structure WebRequest extends Request where
  query : String → Option String
  getUsername : ℤ → Option String
  friends : ℤ → List (ℤ × String)
  isoUtc : ℤ → String
  uuids : ℕ → String

/-- A JSON response, or bytes. -/
inductive WebResponse where
  | json (r : Response)
  | octets (data : List UInt8)

/-! ## Queries and bodies -/

/-- `split(',', Qt::SkipEmptyParts)`. -/
def splitComma (s : String) : List String :=
  ((s.toList.splitOn ',').filter (· ≠ [])).map String.ofList

/-- `queryItemValue`: empty if there is no such item. -/
def WebRequest.queryItemValue (r : WebRequest) (item : String) : String := (r.query item).getD ""

/-- The fields of the query, at its commas. -/
def WebRequest.fields (r : WebRequest) : List String := splitComma (r.queryItemValue "fields")

/-- `o.insert(key, value)`: members are kept by key. -/
def JsonObject.insert : JsonObject → String → Json → JsonObject
  | [], key, v => [(key, v)]
  | (k, w) :: o, key, v =>
    if key < k then (key, v) :: (k, w) :: o
    else if key = k then (key, v) :: o
    else (k, w) :: JsonObject.insert o key v

/-- The object of the wanted fields, inserted one after another. -/
def JsonObject.ofFields (fields : List (Bool × String × Json)) : JsonObject :=
  fields.foldl (fun o f => if f.1 then JsonObject.insert o f.2.1 f.2.2 else o) []

/-- A number in a body. -/
def jsonInt (n : ℤ) : Json := .num n

/-- `QString::number`, as a JSON string. -/
def jsonId (n : ℤ) : Json := .str (ToString.toString n)

/-- A list of texts in a body. -/
def jsonStrings (l : List String) : Json := .arr (l.map Json.str)

/-- A text in the language asked for, if there is one in it. -/
def localText (r : WebRequest) (text : String) (texts : Table String String) : String :=
  if r.queryItemValue "npLanguage" = "" then text
  else (texts.get? (r.queryItemValue "npLanguage")).getD text

/-- The answer with a body. -/
def WebResponse.ok (body : JsonObject) : WebResponse := .json (jsonOk body)

/-- The answer where there is no such session, or none that the caller may see. -/
def WebResponse.notFound : WebResponse := .json sessionNotFound

/-- The answer to somebody who may not see this of the session. -/
def WebResponse.notPermitted : WebResponse :=
  .json (jsonError .forbidden sessionNotPermitted "Not permitted to access the session")

/-- The code of the error for a query parameter that is missing. -/
def webapiQueryParamRequired : ℕ := 2113797

/-- The code of the error for too many elements. -/
def webapiInvalidNumElems : ℕ := 2113923

/-! ## Private sessions -/

/-- An invitation counts while it is unused and has not expired. -/
def Invitation.active (now : ℤ) (inv : Invitation) : Bool :=
  !inv.used && decide (inv.validUntil = 0 ∨ now ≤ inv.validUntil)

/-- The user has an invitation to the session that is neither used nor expired. -/
def hasActiveInvitation (w : Web) (now : ℤ) (sessionId : String) (userId : ℤ) : Bool :=
  w.invitations.entries.any fun e =>
    decide (e.2.toUserId = userId ∧ e.2.sessionId = sessionId) && e.2.active now

/-- The user is a member. -/
def Session.hasMember (s : Session) (userId : ℤ) : Bool := s.members.any fun m => m.userId = userId

/-- Whether the session is shown to the user: it is not private, or he is a participant or invited. -/
def permitted (w : Web) (now : ℤ) (s : Session) (userId : ℤ) : Bool :=
  s.sessionPrivacy ≠ "private" || s.hasMember userId ||
    hasActiveInvitation w now s.sessionId userId

/-! ## One session -/

/-- A member in a body; his name is that of his account, if it is still there. -/
def memberObject (r : WebRequest) (m : SessionMember) : Json :=
  .obj [("accountId", jsonId m.userId), ("onlineId", .str ((r.getUsername m.userId).getD m.npid)),
    ("platform", .str m.platform)]

/-- `GET /v1/sessions/<id>` -/
def handleSessionGet (r : WebRequest) (sessionId : String) (w : Web) : WebResponse :=
  match r.auth with
  | .error e => .json e
  | .ok auth =>
  let wantDefault := r.fields.isEmpty || r.fields.contains "@default"
  match w.sessions.get? sessionId with
  | none => .notFound
  | some s =>
  if !permitted w r.now s auth.userId then .notPermitted
  else
  let creator : Json := .obj [("accountId", jsonId s.ownerUserId),
    ("onlineId", .str ((r.getUsername s.ownerUserId).getD s.ownerNpid))]
  .ok (JsonObject.ofFields
    [(wantDefault, "sessionPrivacy", .str s.sessionPrivacy),
      (wantDefault, "sessionMaxUser", jsonInt s.sessionMaxUser),
      (wantDefault, "sessionType", .str s.sessionType),
      (wantDefault, "sessionName", .str (localText r s.sessionName s.localizedSessionNames)),
      (wantDefault, "sessionStatus", .str (localText r s.sessionStatus s.localizedSessionStatus)),
      (wantDefault, "sessionCreateTimestamp", jsonInt s.createdAt),
      (wantDefault, "sessionCreator", creator),
      (wantDefault, "availablePlatforms", jsonStrings s.availablePlatforms),
      (r.fields.contains "members", "members", .arr (s.members.map (memberObject r))),
      (r.fields.contains "sessionLockFlag", "sessionLockFlag", .bool s.sessionLockFlag),
      (r.fields.contains "sendNotificationFlag", "sendNotificationFlag",
        .bool s.sendNotificationFlag)])

/-- `GET /v1/sessions/<id>/members` -/
def handleSessionMembers (r : WebRequest) (sessionId : String) (w : Web) : WebResponse :=
  match r.auth with
  | .error e => .json e
  | .ok auth =>
  match w.sessions.get? sessionId with
  | none => .notFound
  | some s =>
  if !permitted w r.now s auth.userId then .notPermitted
  else .ok [("members", .arr (s.members.map (memberObject r)))]

/-- Whether a platform, if there is one, is outside a list that is not empty. -/
def platformExcluded (platform : String) (platforms : List String) : Bool :=
  platform ≠ "" && !platforms.isEmpty && !platforms.contains platform

/-- `GET /v1/sessions/<id>/sessionData` -/
def handleSessionGetData (r : WebRequest) (sessionId : String) (w : Web) : WebResponse :=
  match r.auth with
  | .error e => .json e
  | .ok auth =>
  let callerPlatform := (r.clients auth.userId).getD ""
  match w.sessions.get? sessionId with
  | none => .notFound
  | some sn =>
  if platformExcluded callerPlatform sn.availablePlatforms then .notPermitted
  else if sn.sessionPrivacy = "private" && !sn.hasMember auth.userId &&
      !hasActiveInvitation w r.now sessionId auth.userId then .notPermitted
  else .octets sn.sessionData

/-! ## The sessions of a user -/

/-- A session in a list of sessions. -/
structure SessionRow where
  sessionId : String
  platform : String
  sessionName : String
  locName : Table String String
  createdAt : ℤ
  availablePlatforms : List String
  memberCount : ℤ
  lockFlag : Bool
  index : ℤ
  priority : ℤ
  joinedAt : ℤ

/-- The row of a session that has the target and is shown to the caller; the last entry of the
target counts. -/
def sessionRow (w : Web) (now : ℤ) (targetId callerId : ℤ) (s : Session) : Option SessionRow :=
  match s.members.reverse.find? fun m => m.userId = targetId with
  | none => none
  | some tm =>
    if s.sessionPrivacy = "private" && !s.hasMember callerId &&
        !hasActiveInvitation w now s.sessionId callerId then none
    else some
      { sessionId := s.sessionId, platform := tm.platform, sessionName := s.sessionName
        locName := s.localizedSessionNames, createdAt := s.createdAt
        availablePlatforms := s.availablePlatforms, memberCount := s.members.length
        lockFlag := s.sessionLockFlag, index := tm.index, priority := tm.priority
        joinedAt := tm.joinedAt }

/-- The row with the highest priority, of these the one joined last, of these the first. -/
def bestRow (rows : List SessionRow) : Option SessionRow :=
  rows.foldl (fun best r =>
    match best with
    | none => some r
    | some b =>
      if b.priority < r.priority ∨ (r.priority = b.priority ∧ b.joinedAt < r.joinedAt) then some r
      else some b) none

/-- Those of the target's sessions that the caller may see: at the indices of the filter, or the
best one if there is no filter. -/
def collectUserSessions (r : WebRequest) (w : Web) (targetId callerId : ℤ)
    (indexFilter : Option (List ℤ)) : List SessionRow :=
  let rows := (Table.iterate r.order w.sessions).filterMap fun e =>
    sessionRow w r.now targetId callerId e.2
  match indexFilter with
  | some filter => rows.filter fun row => filter.contains row.index
  | none => (bestRow rows).toList

/-- The indices of the query; what is no number is passed over. -/
def parseIndexFilter (r : WebRequest) : Option (List ℤ) :=
  (r.query "index").map fun v => (splitComma v).filterMap toInt?

/-- `GET /v1/users/<key>/sessions` -/
def handleSessionList (r : WebRequest) (userKey : String) (w : Web) : WebResponse :=
  match r.auth with
  | .error e => .json e
  | .ok auth =>
  let isDefault := r.fields.isEmpty
  let selected := match resolveTarget r.toRequest auth userKey with
    | none => []
    | some targetId => collectUserSessions r w targetId auth.userId (parseIndexFilter r)
  let arr := selected.map fun row => Json.obj (JsonObject.ofFields
    [(isDefault || r.fields.contains "platform", "platform", .str row.platform),
      (isDefault || r.fields.contains "sessionId", "sessionId", .str row.sessionId),
      (r.fields.contains "index", "index", jsonInt row.index),
      (r.fields.contains "priority", "priority", jsonInt row.priority)])
  .ok [("sessions", .arr arr), ("size", jsonInt arr.length), ("start", jsonInt 0),
    ("totalResults", jsonInt arr.length)]

/-- The fields that the lists of several users' and of friends' sessions have in common. -/
def rowFields (r : WebRequest) (isDefault : Bool) (row : SessionRow) : List (Bool × String × Json) :=
  [(isDefault || r.fields.contains "sessionId", "sessionId", .str row.sessionId),
    (r.fields.contains "sessionName", "sessionName", .str (localText r row.sessionName row.locName)),
    (r.fields.contains "sessionCreateTimestamp", "sessionCreateTimestamp", jsonInt row.createdAt),
    (r.fields.contains "availablePlatforms", "availablePlatforms",
      jsonStrings row.availablePlatforms),
    (r.fields.contains "memberCount", "memberCount", jsonInt row.memberCount),
    (r.fields.contains "sessionLockFlag", "sessionLockFlag", .bool row.lockFlag)]

/-- `GET /v1/users/@users/sessions` -/
def handleMultiUserSessions (r : WebRequest) (w : Web) : WebResponse :=
  match r.auth with
  | .error e => .json e
  | .ok auth =>
  match r.query "accountIds" with
  | none => .json (jsonError .badRequest webapiQueryParamRequired
      "'accountIds' parameter required in query string")
  | some accountIds =>
  let ids := splitComma accountIds
  if ids.isEmpty || decide (50 < ids.length) then .json (jsonError .badRequest webapiInvalidNumElems
    "'accountIds' must list 1-50 account IDs")
  else
  let isDefault := r.fields.isEmpty || r.fields.contains "@default"
  let users := ids.filterMap fun idStr =>
    match toLongLong? idStr with
    | none => none
    | some accId =>
    -- users with no visible session are left out
    match collectUserSessions r w accId auth.userId (parseIndexFilter r) with
    | [] => none
    | rows =>
      let arr := rows.map fun row => Json.obj (JsonObject.ofFields (rowFields r isDefault row ++
        [(isDefault || r.fields.contains "platform", "platform", .str row.platform),
          (r.fields.contains "index", "index", jsonInt row.index),
          (r.fields.contains "priority", "priority", jsonInt row.priority)]))
      some (Json.obj [("accountId", jsonId accId), ("onlineId", .str ((r.getUsername accId).getD "")),
        ("sessions", .arr arr)])
  .ok [("users", .arr users)]

/-- A limit from the query, kept between 0 and 100. -/
def parseLimit (r : WebRequest) : ℕ :=
  match (r.query "limit").bind toInt? with
  | none => 100
  | some v => if v < 0 then 0 else if 100 < v then 100 else v.toNat

/-- The offset of the query, and 0 for all that is no natural number. -/
def parseOffset (r : WebRequest) : ℕ :=
  match (r.query "offset").bind toInt? with
  | none => 0
  | some v => v.toNat

/-- Each friend's best visible session, each session once, in the order of the friends. -/
def friendsRows (r : WebRequest) (w : Web) (callerId : ℤ) : List SessionRow :=
  (r.friends callerId).foldl (fun rows f =>
    match collectUserSessions r w f.1 callerId none with
    | [] => rows
    | row :: _ => if rows.any fun r => r.sessionId = row.sessionId then rows else rows ++ [row]) []

/-- The friends who are members, with the platform they are on. -/
def friendRefs (r : WebRequest) (w : Web) (callerId : ℤ) (sessionId : String) : List Json :=
  match w.sessions.get? sessionId with
  | none => []
  | some s => s.members.filterMap fun m =>
    ((r.friends callerId).reverse.lookup m.userId).map fun npid =>
      Json.obj [("accountId", jsonId m.userId), ("onlineId", .str npid), ("platform", .str m.platform)]

/-- `GET /v1/users/<key>/friends/sessions` -/
def handleFriendsSessions (r : WebRequest) (w : Web) : WebResponse :=
  match r.auth with
  | .error e => .json e
  | .ok auth =>
  let isDefault := r.fields.isEmpty || r.fields.contains "@default"
  let rows := if r.queryItemValue "sessionApplicationType" = "party" then []
    else friendsRows r w auth.userId
  let arr := ((rows.drop (parseOffset r)).take (parseLimit r)).map fun row =>
    Json.obj (JsonObject.ofFields (rowFields r isDefault row ++ [(r.fields.contains "friends", "friends",
      .arr (friendRefs r w auth.userId row.sessionId))]))
  .ok [("sessions", .arr arr), ("size", jsonInt arr.length), ("start", jsonInt (parseOffset r)),
    ("totalResults", jsonInt rows.length)]

end ShadNet
