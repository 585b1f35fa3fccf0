import ShadNet.Lib.JsonWrite
import ShadNet.Spec.SearchResult
import ShadNet.Spec.SessionViews

/-!
# The summon messenger

The four `POST` routes that put the broker on the web. A request is a JSON object, and so is every
answer; a host is told where to go by a header.
-/

namespace ShadNet.SummonBroker

open Lib Lib.JsonText

/-! ## Compact output -/

section Compact

variable (writeNumber : ℚ → List UInt8)

mutual

/-- `QJsonDocument::Compact`. -/
def compactValue : Json → List UInt8
  | .null => utf8 "null".toList
  | .bool true => utf8 "true".toList
  | .bool false => utf8 "false".toList
  | .num n => writeNumber n
  | .str s => quoted (escape s.toList)
  | .arr l => arrayText (compactElements l)
  | .obj o => objectText (compactMembers o)

/-- The elements of an array, each in its compact form. -/
def compactElements : List Json → List (List UInt8)
  | [] => []
  | v :: l => compactValue v :: compactElements l

/-- The members of an object, in its order, each with its key escaped. -/
def compactMembers : List (String × Json) → List JsonText.Member
  | [] => []
  | (key, v) :: o => field (escape key.toList) (compactValue v) :: compactMembers o

end

/-- `QJsonDocument(o).toJson(QJsonDocument::Compact)`. -/
def toJsonCompact (o : JsonObject) : List UInt8 := objectText (compactMembers writeNumber o)

end Compact

/-! ## Requests and answers -/

/-- What the routes take from Qt: how a document is read and a number written, and the values that a
header may have. -/
structure HttpQt where
  fromJson : List UInt8 → Option Json
  writeNumber : ℚ → List UInt8
  headerTakes : List UInt8 → Bool

/-- What the routes read of a post. -/
structure HttpRequest where
  body : List UInt8
  /-- `request.value(HostPlacementHeader)` -/
  hostPlacement : List UInt8 := []

/-- The two status codes that the routes answer with. -/
inductive HttpStatus where
  | ok
  | badRequest
deriving DecidableEq, Repr

/-- What a route answers: the status, the body, and the header that is passed on. -/
structure HttpResponse where
  status : HttpStatus
  body : List UInt8
  /-- under `HostPlacementHeader`, if the header is there -/
  hostPlacement : Option (List UInt8) := none

section Routes

variable (c : Config) (qt : HttpQt)

/-- What the answers do with a placement. -/
def withHostPlacement (response : HttpResponse) (hostPlacement : List UInt8) : HttpResponse :=
  if hostPlacement ≠ [] ∧ qt.headerTakes hostPlacement = true then
    { response with hostPlacement := some hostPlacement }
  else response

/-- The envelope of an answer that has nothing but its name to say. -/
def summonBody (messageId : String) : JsonObject :=
  .ofFields [(true, "ResKind", .num 0), (true, "MessageId", .str messageId)]

/-- An answer without data. -/
def summonResponse (messageId : String) (hostPlacement : List UInt8) : HttpResponse :=
  withHostPlacement qt ⟨.ok, toJsonCompact qt.writeNumber (summonBody messageId), none⟩ hostPlacement

/-- The loop of `SummonListResponse`. -/
def appendSigns (body : List UInt8) (signs : List (List UInt8)) : List UInt8 :=
  (signs.foldl (fun out sign => (out.1 ++ (if out.2 then [] else [0x2C]) ++ sign, false))
    (body, true)).1

/-- The answer to a search: the stored texts of the signs stand in it as they are. -/
def summonListResponse (signs : List (List UInt8)) : HttpResponse where
  status := .ok
  body := appendSigns (toUtf8 "\x7b\"SummonDataList\":[") signs ++
    toUtf8 "],\"ResKind\":0,\"MessageId\":\"SummonDataGetListResponse\"\x7d"

/-- The answer whose body was put together beforehand. -/
def rawJsonResponse (body hostPlacement : List UInt8) : HttpResponse :=
  withHostPlacement qt ⟨.ok, body, none⟩ hostPlacement

/-- The envelope of a refusal: `ResKind` 1, no `MessageId`, and the reason. -/
def invalidBody (reason : String) : JsonObject :=
  .ofFields [(true, "ResKind", .num 1), (true, "MessageId", .str ""), (true, "Error", .str reason)]

/-- A refusal has the status 400. -/
def invalidRequest (reason : String) : HttpResponse :=
  ⟨.badRequest, toJsonCompact qt.writeNumber (invalidBody reason), none⟩

/-- A body has to be one object. -/
def parseRequest (request : HttpRequest) : Option JsonObject :=
  match qt.fromJson request.body with
  | some (.obj o) => some o
  | _ => none

/-- The fields without which a sign is not put up. -/
def requiredAdvertisementFields : List String :=
  ["SessionId", "UserId", "AreaId", "AreaRegionId", "SummonData", "SummonDataVersion", "SummonType",
    "MatchingLevel"]

/-- The fields of an advertisement are all there and not null, and its session and its data are not
empty. -/
def hasRequiredAdvertisementFields (body : JsonObject) : Bool :=
  requiredAdvertisementFields.all (fun key =>
    body.contains key && decide (body.value key ≠ some .null)) &&
  decide (sessionIdOf body ≠ "") && decide ((body.value "SummonData").toString ≠ "")

/-! ## Routes -/

/-- `/summon_messenger/create`. -/
def createRoute (records : Records) (request : HttpRequest) (nowMs : ℤ) : Records × HttpResponse :=
  match (parseRequest qt request).filter hasRequiredAdvertisementFields with
  | none => (records, invalidRequest qt "Invalid summon advertisement")
  | some body =>
    let (records, result) := advertise c records body request.body nowMs
    if result.pendingClaim ≠ [] then
      let response := buildClaimDeliveryResponse result.pendingClaim
      if response = [] then (records, invalidRequest qt "Invalid pending summon claim")
      else (records, rawJsonResponse qt response result.pendingHostPlacement)
    else
      (records, summonResponse qt "SummonDataCreateResponse" result.pendingHostPlacement)

/-- `/summon_messenger/get`. -/
def getRoute (order : Order String) (records : Records) (request : HttpRequest) (nowMs : ℤ) :
    Records × HttpResponse :=
  match parseRequest qt request with
  | none => (records, invalidRequest qt "Invalid summon search")
  | some body =>
    let prepare := prepareAdvertisementForSearch (toJsonCompact qt.writeNumber)
    let (records, signs) := search c prepare order records body nowMs request.hostPlacement
    (records, summonListResponse signs)

/-- `/summon_messenger/delete`. -/
def deleteRoute (order : Order String) (records : Records) (request : HttpRequest) (nowMs : ℤ) :
    Records × HttpResponse :=
  match parseRequest qt request with
  | none => (records, invalidRequest qt "Invalid summon removal")
  | some body =>
    let (records, result) := consume c order records body nowMs
    (records, summonResponse qt "SummonDataRemoveResponse" result.pendingHostPlacement)

/-- `/summon_messenger/request`: whether the claim is accepted is only logged. -/
def requestRoute (order : Order String) (records : Records) (request : HttpRequest) (nowMs : ℤ) :
    Records × HttpResponse :=
  match parseRequest qt request with
  | none => (records, invalidRequest qt "Invalid summon request")
  | some body =>
    let (records, _) := claim c order records body request.body nowMs request.hostPlacement
    (records, summonResponse qt "SummonDataSummonResponse" [])

end Routes

/-! ## Runs -/

/-- The four posts that the game makes. -/
inductive Route where
  | create
  | get
  | delete
  | request
deriving DecidableEq, Repr

/-- A `POST`, with the order of the records and the time that it finds. -/
structure Post where
  route : Route
  request : HttpRequest
  order : Order String
  nowMs : ℤ

/-- A post goes to its route, with the broker's clock as it is then. -/
def respond (c : Config) (qt : HttpQt) (records : Records) (post : Post) : Records × HttpResponse :=
  match post.route with
  | .create => createRoute c qt records post.request post.nowMs
  | .get => getRoute c qt post.order records post.request post.nowMs
  | .delete => deleteRoute c qt post.order records post.request post.nowMs
  | .request => requestRoute c qt post.order records post.request post.nowMs

/-- The records after the first `n` requests. -/
def messengerAfter (c : Config) (qt : HttpQt) (posts : List Post) (n : ℕ) : Records :=
  runAt (fun records post => (respond c qt records post).1) ∅ posts n

end ShadNet.SummonBroker
