import ShadNet.Lib.Run
import ShadNet.Lib.Table
import ShadNet.Lib.Wrap
import ShadNet.Spec.Json
import ShadNet.Spec.Qt

/-!
# The summon broker

`SummonBroker` keeps the summon signs of Bloodborne hosts and who claimed them. A broker is
its options and a table of records; every operation purges what has expired first. Loops over
the records take the order of the hash table as an argument.
-/

namespace ShadNet.SummonBroker

open Lib

/-- How far a sign has come. -/
inductive State where
  | advertised
  | preparing
  | claimed
  | delivered
  | consumed
deriving DecidableEq, Repr

/-- How a claim ends. -/
inductive ClaimStatus where
  | claimed
  | alreadyClaimed
  | notFound
  | conflict
deriving DecidableEq, Repr

/-- The options of the broker, with their defaults. -/
structure Options where
  ttlMs : ℤ := 130000
  seamlessTtlMs : ℤ := 15 * 60 * 1000
  seamlessCoop : Bool := false
  seamlessAnywhereSummons : Bool := false

/-- The settings that a broker keeps. -/
structure Config where
  ttlMs : ℤ
  seamlessTtlMs : ℤ
  seamlessCoop : Bool
  seamlessAnywhereSummons : Bool

/-- Times are at least one millisecond, and the longer one is no shorter than the other. -/
def Config.ofOptions (o : Options) : Config :=
  ⟨max 1 o.ttlMs, max (max 1 o.ttlMs) o.seamlessTtlMs, o.seamlessCoop,
    o.seamlessAnywhereSummons || o.seamlessCoop⟩

/-- A sign with its claim, as the broker keeps it. -/
structure Record where
  state : State
  advertisement : JsonObject
  rawAdvertisement : List UInt8
  claim : JsonObject
  rawClaim : List UInt8
  hostPlacement : List UInt8
  preparationRequester : ℤ
  updatedAtMs : ℤ

/-- The signs, under session and user. -/
abbrev Records := Table String Record

/-- What the owner of a sign is told: its state, and a claim that waits for him. -/
structure AdvertiseResult where
  state : State
  pendingClaim : List UInt8
  pendingHostPlacement : List UInt8

/-- What somebody who claims a sign is told. -/
structure ClaimResult where
  status : ClaimStatus
  targetSessionId : String
  targetUserId : ℤ

/-- How many signs were used up and how many were kept. -/
structure ConsumeResult where
  consumed : ℕ
  retained : ℕ
  pendingHostPlacement : List UInt8

/-- The placement of a host may have 128 bytes. -/
def maxHostPlacementSize : ℕ := 128

/-! ## Reading requests -/

/-- An integer of the object, or else the fallback. -/
def integer (object : JsonObject) (key : String) (fallback : ℤ) : ℤ :=
  (object.value key).toLongLong?.getD fallback

/-- An integer of the object, if there is one. -/
def optionalInteger (object : JsonObject) (key : String) : Option ℤ :=
  (object.value key).toLongLong?

/-- Signs are kept under session and user. -/
def recordKey (sessionId : String) (userId : ℤ) : String := sessionId ++ ":" ++ toString userId

/-- The session that a body names; empty if it names none. -/
def sessionIdOf (object : JsonObject) : String := (object.value "SessionId").toString

/-- The key that an advertisement is kept under. -/
def recordKeyOf (advertisement : JsonObject) : String :=
  recordKey (sessionIdOf advertisement) (integer advertisement "UserId" (-1))

/-- What the request says of the key, the sign says too. -/
def sameIfPresent (request sign : JsonObject) (key : String) : Bool :=
  match request.value key with
  | none => true
  | some .null => true
  | expected => decide (expected = sign.value key)

/-- The states in which a summon is under way. -/
def isSeamlessActiveState : State → Bool
  | .preparing => true
  | .claimed => true
  | .delivered => true
  | _ => false

/-- Either word asks for the sign to be used up in any state. -/
def forceConsumeRequested (request : JsonObject) : Bool :=
  (request.value "Force").toBool false || (request.value "SeamlessLeave").toBool false

/-- The value of a hexadecimal digit. -/
def hexValue? (b : UInt8) : Option ℕ :=
  if 48 ≤ b ∧ b ≤ 57 then some (b.toNat - 48)
  else if 97 ≤ b ∧ b ≤ 102 then some (b.toNat - 87)
  else if 65 ≤ b ∧ b ≤ 70 then some (b.toNat - 55)
  else none

/-- `isspace` of a byte. -/
def isBlank (b : UInt8) : Bool := b = 32 || (9 ≤ b && b ≤ 13)

/-- `toULongLong(&ok, 16)`: blanks around the number, a plus sign and `0x` are allowed. -/
def toULongLong16? (bytes : List UInt8) : Option ℕ :=
  let trimmed := ((bytes.dropWhile isBlank).reverse.dropWhile isBlank).reverse
  let unsigned := match trimmed with
    | 43 :: rest => rest
    | rest => rest
  let digits := match unsigned with
    | 48 :: 120 :: rest => rest
    | 48 :: 88 :: rest => rest
    | rest => rest
  let value := digits.foldl (fun n b => n.bind fun n => (hexValue? b).map (16 * n + ·)) (some 0)
  match digits, value with
  | [], _ => none
  | _, some n => if n < 2 ^ 64 then some n else none
  | _, none => none

/-- The map that a host placement `1,<map>,...` names. -/
def hostPlacementMap (placement : List UInt8) : Option ℤ :=
  match placement with
  | 49 :: 44 :: rest =>
    if 44 ∈ rest then
      match toULongLong16? (rest.takeWhile (· ≠ 44)) with
      | some packedMap => if packedMap = 0 ∨ 2 ^ 32 ≤ packedMap then none else some packedMap
      | none => none
    else none
  | _ => none

/-- The placement names a map, and the sign is on another one. -/
def elsewhere (placement : List UInt8) (sign : JsonObject) : Bool :=
  match hostPlacementMap placement with
  | some hostMap => decide (integer sign "AreaId" (-1) ≠ hostMap)
  | none => false

/-- The summon types that a request asks for. -/
def summonTypes (request : JsonObject) : List ℤ :=
  (request.value "SummonTypeList").toArray.filterMap fun value =>
    let filter := JsonValue.toObject (some value)
    if filter.contains "SummonType" then some (wrap32 (integer filter "SummonType" 0)) else none

/-- The level filter; the difference is taken in 64 bits. -/
def levelsMatch (requestLevel signLevel : ℤ) : Bool :=
  let difference := wrap64 (requestLevel - signLevel)
  let levelRange := wrap64 (10 + requestLevel.tdiv 5)
  decide (wrap64 (if difference < 0 then -difference else difference) ≤ levelRange)

/-- The distance filter, in 64 bits throughout. -/
def withinDistance (request sign : JsonObject) (distance : ℤ) : Bool :=
  let delta := fun key => wrap64 (integer request key 0 - integer sign key 0)
  let square := fun x => wrap64 (x * x)
  decide (wrap64 (wrap64 (square (delta "PosX") + square (delta "PosY")) + square (delta "PosZ"))
    ≤ square distance)

/-- The sign is one that the request looks for. -/
def matchesSearch (request sign : JsonObject) (anywhereSummons : Bool) : Bool :=
  let requester := integer request "UserId" (-1)
  let requestWord := (request.value "SummonWord").toString
  let requestLevel := integer request "MatchingLevel" (-1)
  let signLevel := integer sign "MatchingLevel" (-1)
  let distance := integer request "DistanceThreshold" (-1)
  !(decide (integer sign "UserId" (-1) = requester) ||
      decide (sessionIdOf sign = sessionIdOf request)) &&
    (sameIfPresent request sign "SummonDataVersion" && sameIfPresent request sign "SummonMethod") &&
    (anywhereSummons || (sameIfPresent request sign "AreaId" &&
      sameIfPresent request sign "AreaRegionId" && sameIfPresent request sign "ChannelId")) &&
    ((summonTypes request).isEmpty ||
      (summonTypes request).contains (wrap32 (integer sign "SummonType" 0))) &&
    (decide (requestWord = "") || decide (requestWord = (sign.value "SummonWord").toString)) &&
    (anywhereSummons || decide (requestWord ≠ "") || decide (requestLevel < 0) ||
      decide (signLevel < 0) || levelsMatch requestLevel signLevel) &&
    (anywhereSummons || decide (distance < 0) || !request.contains "PosX" ||
      !request.contains "PosY" || !request.contains "PosZ" || withinDistance request sign distance)

/-! ## The operations -/

/-- The record is older than its time to live. -/
def expired (c : Config) (nowMs : ℤ) (r : Record) : Bool :=
  let ttl := if c.seamlessCoop && isSeamlessActiveState r.state then c.seamlessTtlMs else c.ttlMs
  decide (ttl < wrap64 (nowMs - r.updatedAtMs))

/-- Signs that have expired go, before every operation. -/
def purgeExpired (c : Config) (nowMs : ℤ) (records : Records) : Records :=
  records.filterMap fun _ r => if expired c nowMs r then none else some r

/-- `Advertise` on a record that is there and not consumed. -/
def readvertise (c : Config) (r : Record) (body : JsonObject) (rawBody : List UInt8)
    (nowMs : ℤ) : Record × AdvertiseResult :=
  let r := { r with advertisement := body, rawAdvertisement := rawBody, updatedAtMs := nowMs }
  -- has the host not reached the map it is to be placed on?
  let elsewhere := elsewhere r.hostPlacement body
  match r.state with
  | .preparing =>
    if elsewhere then (r, ⟨.preparing, [], r.hostPlacement⟩)
    else ({ r with state := .advertised, preparationRequester := -1 }, ⟨.advertised, [], []⟩)
  | .claimed =>
    if c.seamlessCoop && elsewhere then (r, ⟨.claimed, [], r.hostPlacement⟩)
    else ({ r with state := .delivered }, ⟨.delivered, r.rawClaim, r.hostPlacement⟩)
  | .delivered => (r, ⟨.delivered, r.rawClaim, r.hostPlacement⟩)
  | state => (r, ⟨state, [], []⟩)

/-- `Advertise`: a sign is put up, or put up again. -/
def advertise (c : Config) (records : Records) (body : JsonObject) (rawBody : List UInt8)
    (nowMs : ℤ) : Records × AdvertiseResult :=
  let records := purgeExpired c nowMs records
  let key := recordKeyOf body
  let created : Record := ⟨.advertised, body, rawBody, [], [], [], -1, nowMs⟩
  match records.get? key with
  | none => (records.set key created, ⟨.advertised, [], []⟩)
  | some r =>
    if r.state = .consumed then (records.set key created, ⟨.advertised, [], []⟩)
    else
      let (r', result) := readvertise c r body rawBody nowMs
      (records.set key r', result)

/-- What a search does to a record, and the candidate it makes of it. `prepare` rewrites an
advertisement for the requester (`PrepareAdvertisementForSearch`). -/
def searchRecord (c : Config)
    (prepare : List UInt8 → JsonObject → JsonObject → Bool → List UInt8) (request : JsonObject)
    (nowMs : ℤ) (hostPlacement : List UInt8) (r : Record) : Record × Option (ℤ × List UInt8) :=
  let requester := integer request "UserId" (-1)
  let anywhereSummons := c.seamlessCoop && c.seamlessAnywhereSummons
  let candidate :=
    (r.updatedAtMs, prepare r.rawAdvertisement r.advertisement request anywhereSummons)
  if r.state = .advertised ∧ matchesSearch request r.advertisement anywhereSummons = true then
    if anywhereSummons && decide (0 ≤ requester) && elsewhere hostPlacement r.advertisement then
      -- the host has to come to the requester's map first
      ({ r with state := .preparing, hostPlacement, preparationRequester := requester,
                updatedAtMs := nowMs }, none)
    else (r, some candidate)
  -- a sign that the requester has claimed stays visible to him
  else if c.seamlessCoop = true ∧ isSeamlessActiveState r.state = true ∧ 0 ≤ requester ∧
      integer r.claim "UserId" (-2) = requester ∧
      matchesSearch request r.advertisement anywhereSummons = true then
    (r, some candidate)
  else (r, none)

/-- `Search`: the signs that match, in the order of the table, each as it is told. -/
def search (c : Config) (prepare : List UInt8 → JsonObject → JsonObject → Bool → List UInt8)
    (order : Order String) (records : Records) (request : JsonObject) (nowMs : ℤ)
    (hostPlacement : List UInt8) : Records × List (List UInt8) :=
  let records := purgeExpired c nowMs records
  let visit := searchRecord c prepare request nowMs hostPlacement
  let candidates := (records.inOrder order).filterMap fun e => (visit e.2).2
  let sorted := candidates.mergeSort fun l r => decide (r.1 ≤ l.1)
  let maxCount := (max 0 (wrap32 (integer request "GetMaxCount" 20))).toNat
  (records.filterMap fun _ r => some (visit r).1, (sorted.map (·.2)).take maxCount)

/-- The record that a claim is for: the first of the session it names, else the latest of the
user (and character) it names. -/
def claimTarget (order : Order String) (records : Records) (request : JsonObject) :
    Option (String × Record) :=
  let entries := records.inOrder order
  let requestedSession := sessionIdOf request
  let bySession := if requestedSession = "" then none
    else entries.find? fun e => decide (sessionIdOf e.2.advertisement = requestedSession)
  match bySession with
  | some e => some e
  | none =>
    match optionalInteger request "TargetUserId" with
    | none => none
    | some targetUser =>
      let targetChara := request.value "TargetCharaId"
      let anyChara := decide (targetChara = none) || decide (targetChara = some .null)
      entries.foldl (fun target e =>
        if integer e.2.advertisement "UserId" (-1) ≠ targetUser then target
        else if !anyChara && decide (e.2.advertisement.value "CharaId" ≠ targetChara) then target
        else match target with
          | none => some e
          | some t => if t.2.updatedAtMs < e.2.updatedAtMs then some e else some t) none

/-- A placement that a claim may store. -/
def acceptsPlacement (hostPlacement : List UInt8) : Bool :=
  decide (hostPlacement ≠ []) && decide (hostPlacement.length ≤ maxHostPlacementSize) &&
    !hostPlacement.contains 13 && !hostPlacement.contains 10

/-- The status of a claim on a record that is not consumed. -/
def claimStatus (c : Config) (r : Record) (request : JsonObject) : ClaimStatus :=
  if r.state = .claimed ∨ r.state = .delivered then
    if r.claim = request then .alreadyClaimed
    else
      let previousRequester := integer r.claim "UserId" (-1)
      let requester := integer request "UserId" (-1)
      -- the requester of a failed seamless handshake may claim again
      if !c.seamlessCoop || decide (requester < 0) || decide (previousRequester ≠ requester) then
        .conflict
      else .claimed
  else .claimed

/-- `Claim`: the sign of the session that is named is claimed, or else the latest one of the user
that is. -/
def claim (c : Config) (order : Order String) (records : Records) (request : JsonObject)
    (rawRequest : List UInt8) (nowMs : ℤ) (hostPlacement : List UInt8) :
    Records × ClaimResult :=
  let records := purgeExpired c nowMs records
  match claimTarget order records request with
  | none => (records, ⟨.notFound, "", -1⟩)
  | some (key, r) =>
    if r.state = .consumed then (records, ⟨.notFound, "", -1⟩)
    else
      let status := claimStatus c r request
      let result : ClaimResult :=
        ⟨status, sessionIdOf r.advertisement, integer r.advertisement "UserId" (-1)⟩
      if status = .claimed then
        (records.set key { r with
          state := .claimed, claim := request, rawClaim := rawRequest
          hostPlacement :=
            if c.seamlessCoop && acceptsPlacement hostPlacement then hostPlacement else []
          updatedAtMs := nowMs }, result)
      else (records, result)

/-- A request to consume names the record. -/
def consumeMatches (request : JsonObject) (r : Record) : Bool :=
  (decide (sessionIdOf request = "") ||
      decide (sessionIdOf r.advertisement = sessionIdOf request)) &&
    (match optionalInteger request "UserId" with
      | none => true
      | some userId => decide (integer r.advertisement "UserId" (-1) = userId)) &&
    decide (r.state ≠ .consumed)

/-- The record outlives a request to consume it: it is part of a seamless session. -/
def retains (c : Config) (request : JsonObject) (r : Record) : Bool :=
  c.seamlessCoop && !forceConsumeRequested request && isSeamlessActiveState r.state

/-- `Consume`: the signs of a session or a user are used up, and a seamless summon under way keeps
them. -/
def consume (c : Config) (order : Order String) (records : Records) (request : JsonObject)
    (nowMs : ℤ) : Records × ConsumeResult :=
  let records := purgeExpired c nowMs records
  if sessionIdOf request = "" ∧ optionalInteger request "UserId" = none then (records, ⟨0, 0, []⟩)
  else
    let hit := ((records.inOrder order).map (·.2)).filter (consumeMatches request)
    let retained := hit.filter (retains c request)
    (records.filterMap fun _ r => some <|
        if consumeMatches request r then
          if retains c request r then { r with updatedAtMs := nowMs }
          else { r with state := .consumed, updatedAtMs := nowMs }
        else r,
      { consumed := hit.length - retained.length
        retained := retained.length
        pendingHostPlacement :=
          ((retained.map (·.hostPlacement)).filter (· ≠ [])).getLast?.getD [] })

/-- The state of a sign, for whoever asks. -/
def stateFor (c : Config) (records : Records) (sessionId : String) (userId nowMs : ℤ) :
    Records × Option State :=
  let records := purgeExpired c nowMs records
  (records, (records.get? (recordKey sessionId userId)).map (·.state))

/-- The number of signs that have not expired. -/
def size (c : Config) (records : Records) (nowMs : ℤ) : Records × ℕ :=
  let records := purgeExpired c nowMs records
  (records, records.size)

/-! ## Runs -/

/-- A call of one of the operations, with its time. -/
inductive Op where
  | advertise (body : JsonObject) (rawBody : List UInt8) (nowMs : ℤ)
  | search (order : Order String) (request : JsonObject) (nowMs : ℤ) (hostPlacement : List UInt8)
  | claim (order : Order String) (request : JsonObject) (rawRequest : List UInt8) (nowMs : ℤ)
      (hostPlacement : List UInt8)
  | consume (order : Order String) (request : JsonObject) (nowMs : ℤ)
  | stateFor (sessionId : String) (userId nowMs : ℤ)
  | size (nowMs : ℤ)

/-- What a call makes of the signs. -/
def applyOp (c : Config) (prepare : List UInt8 → JsonObject → JsonObject → Bool → List UInt8)
    (records : Records) : Op → Records
  | .advertise body rawBody nowMs => (advertise c records body rawBody nowMs).1
  | .search order request nowMs hostPlacement =>
    (search c prepare order records request nowMs hostPlacement).1
  | .claim order request rawRequest nowMs hostPlacement =>
    (claim c order records request rawRequest nowMs hostPlacement).1
  | .consume order request nowMs => (consume c order records request nowMs).1
  | .stateFor sessionId userId nowMs => (stateFor c records sessionId userId nowMs).1
  | .size nowMs => (size c records nowMs).1

end ShadNet.SummonBroker
