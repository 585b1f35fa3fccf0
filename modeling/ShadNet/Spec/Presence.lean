import ShadNet.Spec.Notification
import ShadNet.Spec.SessionViews

/-!
# Presence

The presence routes of the Web API (`webapi_routes_presence.cpp`), and the friend list and the
profiles (`webapi_routes_users.cpp`, `webapi_routes_profile.cpp`), which show presence as well. Each
of these hides those who appear offline in its own way.
-/

namespace ShadNet

open Lib

/-- A Web API request that may show an avatar. -/
structure UserRequest extends WebRequest where
  getAvatarUrl : ℤ → Option String

/-- The code of the error for a query parameter with a value that is not known. -/
def upInvalidQueryParam : ℕ := 2105601

/-- The code of the error for a query parameter that is missing. -/
def upQueryParamRequired : ℕ := 2105605

/-- The code of the error for somebody else's resource. -/
def upAccessDeniedOwnership : ℕ := 2105358

/-- The code of the error for a user who is no friend. -/
def upNonFriendNotAllowed : ℕ := 2107904

/-- The answer to a request for somebody else's resource. -/
def accessDeniedOwnership : Response :=
  jsonError .forbidden upAccessDeniedOwnership "Access denied by resource ownership"

/-- The answer that names the parameter. -/
def invalidQueryParam (item : String) : WebResponse :=
  .json (jsonError .badRequest upInvalidQueryParam
    ("Invalid parameter in query string (parameter: '" ++ item ++ "')"))

/-- The region that every profile has. -/
def defaultRegion : String := "us"

/-- The npid of a profile is the online id in base 64. -/
def encodeNpId (onlineId : String) : String := String.ofList (toBase64 (toUtf8 onlineId))

/-- The path names the caller himself. -/
def isSelf (qt : Qt) (auth : AuthResult) (userKey : String) : Bool :=
  qt.eqNoCase userKey "me" || qt.eqNoCase userKey auth.npid ||
    decide (userKey = ToString.toString auth.userId)

/-! ## Presence objects -/

/-- The word for being online or not. -/
def onlineStatus (online : Bool) : Json := .str (if online then "online" else "offline")

/-- What a presence of one platform says; of the game only while online and asked for detail. -/
def makePresenceEntry (online : Bool) (platform gameStatus gameData npTitleId titleName : String)
    (includeDetail forcePlatform : Bool) : JsonObject :=
  let detail := online && includeDetail
  let gti := JsonObject.ofFields
    [(npTitleId ≠ "", "npTitleId", .str npTitleId), (titleName ≠ "", "titleName", .str titleName)]
  JsonObject.ofFields
    [(true, "onlineStatus", onlineStatus online),
      (online || forcePlatform, "platform", .str (if platform = "" then "PS4" else platform)),
      (detail && gameStatus ≠ "", "gameStatus", .str gameStatus),
      (detail && gameData ≠ "", "gameData", .str gameData),
      (detail && (npTitleId ≠ "" || titleName ≠ ""), "gameTitleInfo", .obj gti)]

/-- A presence of the type that was asked for. -/
def makePresence (presenceType : String) (online : Bool)
    (platform gameStatus gameData npTitleId titleName : String) (detail inSameGame : Bool)
    (platReq : String) : JsonObject :=
  let platOk := platReq = "" || platReq = "PS4"
  let status := ("onlineStatus", onlineStatus online)
  if presenceType = "platform" then
    [status, ("platformInfoList", .arr (if platOk then [.obj (makePresenceEntry online "PS4" gameStatus
      "" npTitleId titleName detail true)] else []))]
  else if presenceType = "incontext" then
    [("incontextInfoList", .arr (if online && inSameGame && platOk then [.obj (makePresenceEntry online
      "PS4" gameStatus gameData npTitleId titleName detail true)] else [])), status]
  else
    [status, ("primaryInfo", .obj (makePresenceEntry online platform gameStatus "" npTitleId titleName
      detail false))]

/-- The status in the first of the languages that it is there in, else the default one. -/
def ClientEntry.statusIn (e : ClientEntry) (npLanguages : String) : String :=
  ((splitComma npLanguages).findSome? e.localizedGameStatus.get?).getD e.gameStatus

/-! ## `GET` presence -/

/-- Whom a key of the path means: the caller, an id, or a name. -/
def presenceTarget (r : UserRequest) (auth : AuthResult) (userKey : String) : ℤ :=
  if isSelf r.qt auth userKey then auth.userId
  else match toLongLong? userKey with
    | some v => v
    | none => (r.getUserId userKey).getD 0

/-- The presence of the target as the caller gets it. -/
def presenceShown (r : UserRequest) (sh : SharedState) (callerId targetId : ℤ) (type : String)
    (detail : Bool) (platReq : String) : JsonObject :=
  match sh.clients.get? targetId with
  | none => makePresence type false "" "" "" "" "" detail false platReq
  | some e =>
    let inSameGame := sh.sameGame callerId targetId
    let gameStatus := e.statusIn (r.queryItemValue "npLanguages")
    let gs := if inSameGame then gameStatus else ""
    let gd := if inSameGame then e.gameData else ""
    makePresence type (inSameGame || !e.appearOffline) e.platform gs gd e.npTitleId e.titleName detail
      inSameGame platReq

/-- `GET /v1/users/<key>/presence` -/
def handlePresenceGet (r : UserRequest) (userKey : String) (sh : SharedState) : WebResponse :=
  match r.auth with
  | .error e => .json e
  | .ok auth =>
  let type := r.queryItemValue "type"
  if type = "" then .json (jsonError .badRequest upQueryParamRequired
    "'type' parameter required in query string")
  else if type ≠ "primary" ∧ type ≠ "platform" ∧ type ≠ "incontext" then invalidQueryParam "type"
  else
  let platReq := r.queryItemValue "platform"
  if platReq ≠ "" ∧ type = "primary" then invalidQueryParam "platform"
  else
  let self := isSelf r.qt auth userKey
  let targetId := presenceTarget r auth userKey
  if !(self || (targetId ≠ 0 && (r.friends auth.userId).any fun f => f.1 = targetId)) then
    .json (jsonError .forbidden upNonFriendNotAllowed "Non-friend not allowed")
  else
  let onlineId := (r.getUsername targetId).getD (if self then auth.npid else userKey)
  .ok [("npId", .str (encodeNpId onlineId)),
    ("presence", .obj (presenceShown r sh auth.userId targetId type
      (r.queryItemValue "presenceDetail" = "true") platReq))]

/-! ## The friend list -/

/-- What a friend list is asked for with. -/
structure FriendListQuery where
  fields : List String
  offset : ℕ
  limit : ℕ
  /-- empty: without presence -/
  presenceType : String
  presenceDetail : Bool
  filter : String
  sortKey : String
  direction : String
  callerUserId : ℤ
  npLanguages : String

/-- The list is to have presences in it. -/
def FriendListQuery.wantPresence (q : FriendListQuery) : Bool := q.presenceType ≠ ""

/-- The field is among the default ones, or asked for. -/
def wantsDefault (fields : List String) (field : String) : Bool :=
  fields.contains "@default" || fields.contains field

/-- The snapshot of a friend who is online. -/
def onlineFriend (sh : SharedState) (q : FriendListQuery) (userId : ℤ) : Option ClientEntry :=
  if q.wantPresence then sh.clients.get? userId else none

/-- The friend is online in the caller's game. -/
def sameGameOf (sh : SharedState) (q : FriendListQuery) (userId : ℤ) : Bool :=
  (onlineFriend sh q userId).isSome && sh.sameGame q.callerUserId userId

/-- Who appears offline is seen as online by those in his game only. -/
def effectiveOnline (sh : SharedState) (q : FriendListQuery) (userId : ℤ) : Bool :=
  match onlineFriend sh q userId with
  | none => false
  | some e => sh.sameGame q.callerUserId userId || !e.appearOffline

/-- The filter of the query is followed only if presences are wanted. -/
def filterFriends (sh : SharedState) (q : FriendListQuery) (friends : List (ℤ × String)) :
    List (ℤ × String) :=
  if q.wantPresence ∧ q.filter = "online" then friends.filter fun fr => effectiveOnline sh q fr.1
  else if q.wantPresence ∧ q.filter = "incontext" then friends.filter fun fr => sameGameOf sh q fr.1
  else friends

/-- 0 for a friend online, 1 for one offline. -/
def friendRank (sh : SharedState) (q : FriendListQuery) (userId : ℤ) : ℕ :=
  if effectiveOnline sh q userId then 0 else 1

/-- The first friend is to stand before the second. -/
def friendBefore (qt : Qt) (sh : SharedState) (q : FriendListQuery) (a b : ℤ × String) : Bool :=
  let desc := q.direction = "desc"
  let byStatus := "onlineStatus".toList.isPrefixOf q.sortKey.toList
  let ra := friendRank sh q a.1
  let rb := friendRank sh q b.1
  if byStatus ∧ ra ≠ rb then (if desc then rb < ra else ra < rb)
  else if byStatus ∧ q.sortKey ≠ "onlineStatus+onlineId" then false
  else if desc then qt.ltNoCase b.2 a.2 else qt.ltNoCase a.2 b.2

/-- Friends by the sort key, if there is one; equal friends stay in their order. -/
def sortFriends (qt : Qt) (sh : SharedState) (q : FriendListQuery) (friends : List (ℤ × String)) :
    List (ℤ × String) :=
  if q.sortKey = "" then friends
  else friends.insertionSort fun a b => friendBefore qt sh q b a = false

/-- The friends in the order of the list, before it is cut to a page. -/
def listedFriends (qt : Qt) (sh : SharedState) (q : FriendListQuery) (friends : List (ℤ × String)) :
    List (ℤ × String) :=
  sortFriends qt sh q (filterFriends sh q friends)

/-- The presence in an entry of the list; status and data are for those in the same game. -/
def friendPresence (sh : SharedState) (q : FriendListQuery) (userId : ℤ) : JsonObject :=
  match onlineFriend sh q userId, effectiveOnline sh q userId with
  | some e, true =>
    let sameGame := sameGameOf sh q userId
    let gs := if sameGame then e.statusIn q.npLanguages else ""
    let gd := if sameGame then e.gameData else ""
    makePresence q.presenceType true e.platform gs gd e.npTitleId e.titleName q.presenceDetail sameGame
      ""
  | _, _ => makePresence q.presenceType false "" "" "" "" "" q.presenceDetail false ""

/-- A user by id and name. -/
def userObject (userId : ℤ) (onlineId : String) : Json :=
  .obj [("accountId", jsonId userId), ("onlineId", .str onlineId)]

/-- What the friend list and the profiles have in common. -/
def identityFields (r : UserRequest) (fields : List String) (userId : ℤ) (onlineId : String)
    (wantAvatar : Bool) : List (Bool × String × Json) :=
  let avatar := (r.getAvatarUrl userId).getD ""
  [(wantsDefault fields "user", "user", userObject userId onlineId),
    (wantsDefault fields "region", "region", .str defaultRegion),
    (wantsDefault fields "npId", "npId", .str (encodeNpId onlineId)),
    (wantAvatar && avatar ≠ "", "avatarUrl", .str avatar),
    (fields.contains "personalDetail" || fields.contains "personalDetail.displayName",
      "personalDetail", .obj [("displayName", .str onlineId)]),
    (fields.contains "isOfficiallyVerified", "isOfficiallyVerified", .bool false)]

/-- A friend with the fields that were asked for. -/
def friendEntry (r : UserRequest) (sh : SharedState) (q : FriendListQuery) (fr : ℤ × String) :
    JsonObject :=
  JsonObject.ofFields (identityFields r q.fields fr.1 fr.2
      (q.fields.contains "avatarUrl" || q.fields.contains "avatarUrls") ++
    [(q.wantPresence, "presence", .obj (friendPresence sh q fr.1))])

/-- One page of the list, with what it says about itself. -/
def buildFriendList (r : UserRequest) (sh : SharedState) (q : FriendListQuery)
    (friends : List (ℤ × String)) : JsonObject :=
  let friends := listedFriends r.qt sh q friends
  let arr := ((friends.drop q.offset).take q.limit).map fun fr => Json.obj (friendEntry r sh q fr)
  [("friendList", .arr arr), ("size", jsonInt arr.length), ("start", jsonInt q.offset),
    ("totalResults", jsonInt friends.length)]

/-- The fields of the query; without any, the default ones. -/
def fieldsOrDefault (r : UserRequest) : List String :=
  splitComma (if r.queryItemValue "fields" = "" then "@default" else r.queryItemValue "fields")

/-- `ParsePaging`: the limit and the offset. -/
def parsePaging (r : UserRequest) (fallbackDefault maxLimit : ℕ) : ℕ × ℕ :=
  let limit := (toInt? (r.queryItemValue "limit")).getD fallbackDefault
  let offset := (toInt? (r.queryItemValue "offset")).getD 0
  (min limit.toNat maxLimit, offset.toNat)

/-- The query as `HandleFriendList` reads it from the request. -/
def friendListQuery (r : UserRequest) (auth : AuthResult) : FriendListQuery where
  fields := fieldsOrDefault r
  offset := (parsePaging r 100 500).2
  limit := (parsePaging r 100 500).1
  presenceType := r.queryItemValue "presenceType"
  presenceDetail := r.queryItemValue "presenceType" ≠ "" && r.queryItemValue "presenceDetail" = "true"
  filter := r.queryItemValue "filter"
  sortKey := r.queryItemValue "sort"
  direction := r.queryItemValue "direction"
  callerUserId := auth.userId
  npLanguages := r.queryItemValue "npLanguages"

/-- `GET /v1/users/<key>/friendList` -/
def handleFriendList (r : UserRequest) (userKey : String) (sh : SharedState) : WebResponse :=
  match r.auth with
  | .error e => .json e
  | .ok auth =>
  if !isSelf r.qt auth userKey then .json accessDeniedOwnership
  else
  match r.query "friendStatus" with
  | none => .json (jsonError .badRequest upQueryParamRequired
      "'friendStatus' parameter required in query string")
  | some friendStatus =>
  if friendStatus ≠ "friend" then invalidQueryParam "friendStatus"
  else
  let q := friendListQuery r auth
  if q.presenceType ≠ "" ∧ q.presenceType ≠ "primary" ∧ q.presenceType ≠ "platform" ∧
      q.presenceType ≠ "incontext" then invalidQueryParam "presenceType"
  else if (q.sortKey = "onlineStatus" ∨ q.sortKey = "onlineStatus+onlineId") ∧ !q.wantPresence then
    invalidQueryParam "sort"
  else .ok (buildFriendList r sh q (r.friends auth.userId))

/-! ## Profiles -/

/-- Only the user himself and those in the same game get the status of the game. -/
def profilePresence (sh : SharedState) (callerUserId userId : ℤ) : JsonObject :=
  match sh.clients.get? userId with
  | none => makePresenceEntry false "" "" "" "" "" true false
  | some e =>
    let self := decide (callerUserId = userId)
    let sameGame := !self && sh.sameGame callerUserId userId
    let gs := if self || sameGame then e.gameStatus else ""
    makePresenceEntry (self || sameGame || !e.appearOffline) e.platform gs "" e.npTitleId e.titleName
      true false

/-- A profile with the fields that were asked for. -/
def buildProfile (r : UserRequest) (sh : SharedState) (userId : ℤ) (onlineId : String)
    (fields : List String) (callerUserId : ℤ) : JsonObject :=
  JsonObject.ofFields (identityFields r fields userId onlineId
      (wantsDefault fields "avatarUrl" || fields.contains "avatarUrls") ++
    [(wantsDefault fields "aboutMe", "aboutMe", .str ""),
      (wantsDefault fields "languagesUsed", "languagesUsed", .arr []),
      (fields.contains "presence", "presence",
        .obj [("primaryInfo", .obj (profilePresence sh callerUserId userId))])])

/-- Ids that are malformed or no account's are skipped. -/
def buildProfiles (r : UserRequest) (sh : SharedState) (accountIds fields : List String)
    (callerUserId : ℤ) : JsonObject :=
  let arr := accountIds.filterMap fun idStr => (toLongLong? idStr).bind fun accId =>
    (r.getUsername accId).map fun name =>
      Json.obj (buildProfile r sh accId name fields callerUserId)
  [("profiles", .arr arr), ("size", jsonInt arr.length)]

/-- The ids of the accounts asked for, or what is wrong with them. -/
def profileIds (r : UserRequest) : Except WebResponse (List String) :=
  match r.query "accountIds", r.query "onlineId" with
  | some v, _ =>
    let ids := splitComma v
    if ids.isEmpty || decide (50 < ids.length) then .error (invalidQueryParam "accountIds") else .ok ids
  | none, some v =>
    let onlineIds := splitComma v
    if onlineIds.isEmpty || decide (50 < onlineIds.length) then .error (invalidQueryParam "onlineId")
    else .ok (onlineIds.filterMap fun oid => (r.getUserId oid).map ToString.toString)
  | none, none => .error (.json (jsonError .badRequest upQueryParamRequired
      "'accountIds' or 'onlineId' parameter required in query string"))

/-- `GET /v1/profiles` -/
def handleProfiles (r : UserRequest) (sh : SharedState) : WebResponse :=
  match r.auth with
  | .error e => .json e
  | .ok auth =>
  match profileIds r with
  | .error e => e
  | .ok ids => .ok (buildProfiles r sh ids (fieldsOrDefault r) auth.userId)

/-- `GET /v1/users/<key>/profile` -/
def handleProfile (r : UserRequest) (userKey : String) (sh : SharedState) : WebResponse :=
  match r.auth with
  | .error e => .json e
  | .ok auth =>
  if !isSelf r.qt auth userKey then .json accessDeniedOwnership
  else
  let onlineId := (r.getUsername auth.userId).getD auth.npid
  .ok (buildProfile r sh auth.userId onlineId (fieldsOrDefault r) auth.userId)

/-- The requests that show presence. -/
inductive PresenceGet where
  | presence (userKey : String)
  | friendList (userKey : String)
  | profiles
  | profile (userKey : String)

/-- Each GET goes to its handler. -/
def PresenceGet.respond (r : UserRequest) (sh : SharedState) : PresenceGet → WebResponse
  | .presence userKey => handlePresenceGet r userKey sh
  | .friendList userKey => handleFriendList r userKey sh
  | .profiles => handleProfiles r sh
  | .profile userKey => handleProfile r userKey sh

/-! ## Publishing -/

/-- What a handler that publishes presence does. -/
structure PublishOutcome where
  clients : Table ℤ ClientEntry
  response : Response
  sent : List Sent

/-- The texts of a `localizedGameStatus` array; one without a language is skipped. -/
def localizedStatuses (v : JsonValue) : Table String String :=
  v.toArray.foldl (fun t j =>
    let le := JsonValue.toObject (some j)
    let lang := (le.value "npLanguage").toString
    if lang = "" then t else t.set lang (le.value "gameStatus").toString) ∅

/-- The entry with what the body of a write sets. -/
def ClientEntry.publish (e : ClientEntry) (obj : JsonObject) (reqNotify : Bool) : ClientEntry :=
  { e with
    notifyWithData := e.notifyWithData || reqNotify
    gameStatus := if obj.contains "gameStatus" then (obj.value "gameStatus").toString else e.gameStatus
    gameData := if obj.contains "gameData" then (obj.value "gameData").toString else e.gameData
    localizedGameStatus := if obj.contains "localizedGameStatus"
      then localizedStatuses (obj.value "localizedGameStatus") else e.localizedGameStatus }

/-- Friends in the updater's game; all of them while it is unknown. -/
def mayReceive (sh : SharedState) (updater : ℤ) (fid : ℤ) : Bool :=
  sh.comId updater = "" || decide (sh.comId fid = sh.comId updater)

/-- The events of a write, for one friend. -/
def publishEvents (obj : JsonObject) (notify : Bool) (fromNpid : String) (fe : ClientEntry) :
    List Notification :=
  (match obj.value "gameStatus" with
    | none => []
    | some v => [inGamePresence kGameStatus "gameStatus" notify v fromNpid fe]) ++
  match obj.value "gameData" with
    | none => []
    | some v => [inGamePresence kGameData "gameData" notify v fromNpid fe]

/-- The `PUT` routes of presence; `leaf` is the last segment of the path. -/
def handlePresenceWrite (r : UserRequest) (leaf userKey : String) (body : List UInt8)
    (sh : SharedState) : PublishOutcome :=
  match r.auth with
  | .error e => ⟨sh.clients, e, []⟩
  | .ok auth =>
  if !isSelf r.qt auth userKey then ⟨sh.clients, accessDeniedOwnership, []⟩
  else
  -- a body that cannot be read is an empty object
  let obj := JsonValue.toObject (r.fromJson body)
  if leaf = "gameStatus" ∧ !obj.contains "gameStatus" then ⟨sh.clients,
    jsonError .badRequest upQueryParamRequired "'gameStatus' is required in the request body", []⟩
  else if obj.contains "localizedGameStatus" ∧ !obj.contains "gameStatus" then ⟨sh.clients,
    jsonError .badRequest upQueryParamRequired
      "'gameStatus' (default) is required when 'localizedGameStatus' is specified", []⟩
  else
  let reqNotify := r.queryItemValue "notificationWithData" = "true"
  let sh := { sh with clients := sh.clients.modify auth.userId fun e => e.publish obj reqNotify }
  -- stored in any case, but nobody hears of one who appears offline
  let sent := match sh.clients.get? auth.userId with
    | none => []
    | some e =>
      if e.appearOffline then []
      else toFriends sh auth.userId (mayReceive sh auth.userId)
        (publishEvents obj e.notifyWithData auth.npid)
  ⟨sh.clients, noContent, sent⟩

/-- The two parts of a presence that can be deleted. -/
inductive DeleteField where
  | gameData
  | gameStatus

/-- The data type of the push about it. -/
def DeleteField.dataType : DeleteField → String
  | .gameData => kGameData
  | .gameStatus => kGameStatus

/-- What is left of the entry. -/
def DeleteField.clear (e : ClientEntry) : DeleteField → ClientEntry
  | .gameData => { e with gameData := "", notifyWithData := false }
  | .gameStatus => { e with gameStatus := "", localizedGameStatus := ∅ }

/-- The `DELETE` routes of presence. -/
def handlePresenceDelete (r : UserRequest) (field : DeleteField) (userKey : String)
    (sh : SharedState) : PublishOutcome :=
  match r.auth with
  | .error e => ⟨sh.clients, e, []⟩
  | .ok auth =>
  if !isSelf r.qt auth userKey then ⟨sh.clients, accessDeniedOwnership, []⟩
  else
  let sh := { sh with clients := sh.clients.modify auth.userId fun e => field.clear e }
  let sent := match sh.clients.get? auth.userId with
    | none => []
    | some e =>
      if e.appearOffline then []
      else toFriends sh auth.userId (mayReceive sh auth.userId) fun fe =>
        [.webApiPushEvent "inGamePresence" field.dataType none auth.npid fe.npid]
  ⟨sh.clients, noContent, sent⟩

/-! ## Runs -/

/-- An event of the game server, or a presence route that changes an entry. -/
inductive PresenceEvent where
  | server (e : Event)
  | put (r : UserRequest) (leaf userKey : String) (body : List UInt8)
  | delete (r : UserRequest) (field : DeleteField) (userKey : String)

/-- What a publishing handler does to the server. -/
def Server.publish (s : Server) (o : PublishOutcome) : Server :=
  { s with shared := { s.shared with clients := o.clients } }

/-- An event of the server, or a request that writes a presence. -/
def Server.presenceStep (sv : Services) (s : Server) : PresenceEvent → Server
  | .server e => s.step sv e
  | .put r leaf userKey body => s.publish (handlePresenceWrite r leaf userKey body s.shared)
  | .delete r field userKey => s.publish (handlePresenceDelete r field userKey s.shared)

/-- What an event sends to friends. -/
def Server.presenceSent (sv : Services) (s : Server) : PresenceEvent → List Sent
  | .server e => s.sent sv e
  | .put r leaf userKey body => (handlePresenceWrite r leaf userKey body s.shared).sent
  | .delete r field userKey => (handlePresenceDelete r field userKey s.shared).sent

/-- The server after the first `n` events. -/
def presenceAfter (sv : Services) (db : Database) (events : List PresenceEvent) (n : ℕ) : Server :=
  runAt (Server.presenceStep sv) { db } events n

end ShadNet
