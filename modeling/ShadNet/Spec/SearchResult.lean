import ShadNet.Spec.RawJson

/-!
# What a search returns of an advertisement

`PrepareAdvertisementForSearch` puts an advertisement together again from its raw members, and
replaces some of them. `toJson` is the compact output of `QJsonDocument`.
-/

namespace ShadNet.SummonBroker

/-- The text of a value, cut out of an object that wraps it. -/
def compactJsonValue (toJson : JsonObject → List UInt8) (value : Json) : List UInt8 :=
  let raw := toJson [("_", value)]
  match raw.findIdx? (· = 0x3A) with
  | none => []
  | some colon =>
    if raw.length < colon + 2 ∨ raw.getLast? ≠ some 0x7D then []
    else (raw.drop (colon + 1)).take (raw.length - colon - 2)

/-- A member in its compact form; nothing if its value has no text. -/
def buildRawMember (toJson : JsonObject → List UInt8) (key : List UInt8) (value : Json) :
    List UInt8 :=
  let rawValue := compactJsonValue toJson value
  if rawValue = [] then [] else 0x22 :: key ++ toUtf8 "\":" ++ rawValue

/-- The members that tell where a sign is, and of which level. -/
def spoofedFields : List (List UInt8) :=
  [toUtf8 "AreaId", toUtf8 "AreaRegionId", toUtf8 "ChannelId", toUtf8 "MatchingLevel",
    toUtf8 "PosX", toUtf8 "PosY", toUtf8 "PosZ"]

/-- The member says where somebody is. -/
def shouldSpoofAdvertisementField (key : List UInt8) : Bool := spoofedFields.contains key

/-- The blob of summon data has 224 bytes. -/
def payloadSize : ℕ := 0xE0

/-- Where the blob says how many results there are. -/
def availableResultCountOffset : ℕ := 0x79

/-- The payload of a summon, with one result to be had. -/
def summonDataWithAvailableResult (advertisement : JsonObject) : Option String :=
  if integer advertisement "SummonDataVersion" (-1) ≠ 3 then none
  else
    let encoded := toLatin1 (advertisement.value "SummonData").toString
    let payload := fromBase64 encoded
    if payload.length ≠ payloadSize ∨ payload[availableResultCountOffset]? ≠ some 0 then none
    else some (String.ofList (toBase64 (payload.set availableResultCountOffset 1)))

/-- The request's value for a field, if it has one. -/
def replacement (request : JsonObject) (key : List UInt8) : Option Json :=
  match request.value (fromLatin1 key) with
  | none => none
  | some .null => none
  | some value => some value

/-- The output so far, and whether it has no member yet. -/
def appendMember (out : List UInt8 × Bool) (rawMember : List UInt8) : List UInt8 × Bool :=
  if rawMember = [] then out
  else (out.1 ++ (if out.2 then [] else [0x2C]) ++ rawMember, false)

/-- What becomes of a member. -/
def rewriteMember (toJson : JsonObject → List UInt8) (summonData : Option String)
    (request : JsonObject) (spoofLocation : Bool) (member : TopLevelMember) : List UInt8 :=
  match if member.key = toUtf8 "SummonData" then summonData else none with
  | some data => buildRawMember toJson member.key (.str data)
  | none =>
    match if spoofLocation && shouldSpoofAdvertisementField member.key then
        replacement request member.key else none with
    | some value => buildRawMember toJson member.key value
    | none => member.raw

/-- The members of a sign as they were sent, with those that the search changes put in their places.
-/
def prepareAdvertisementForSearch (toJson : JsonObject → List UInt8) (rawAdvertisement : List UInt8)
    (advertisement request : JsonObject) (spoofLocation : Bool) : List UInt8 :=
  let members := topLevelMembers rawAdvertisement
  if members = [] then rawAdvertisement
  else
    let summonData := summonDataWithAvailableResult advertisement
    let out := (members.map (rewriteMember toJson summonData request spoofLocation)).foldl
      appendMember ([0x7B], true)
    let emitted := members.map (·.key)
    let missing := if spoofLocation then spoofedFields.filter fun key => !emitted.contains key else []
    let out := (missing.filterMap fun key =>
      (replacement request key).map (buildRawMember toJson key)).foldl appendMember out
    out.1 ++ [0x7D]

end ShadNet.SummonBroker
