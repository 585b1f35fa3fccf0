import Mathlib.Data.List.Sort
import ShadNet.Lib.ReadThrough
import ShadNet.Spec.ScoreboardsCfg
import ShadNet.Spec.SessionViews
import ShadNet.Spec.ShadNetServer

/-!
# The stats server

Five queries over HTTP about users and scores. Their answers are kept for some seconds, under a key.
-/

namespace ShadNet

open Lib

/-- The statistics show 100 ranks of a board. -/
def maxRanksPerBoard : ℕ := 100

/-- `QString::size`. -/
def qstringSize (s : String) : ℕ := (s.toList.map fun c => if c.toNat < 0x10000 then 1 else 2).sum

/-! ## Bodies -/

/-- What a read takes from its surroundings: the order of the games, whether the database opens and
runs its statements, and the time. -/
structure StatsEnv where
  order : Order String
  opened : Bool
  exec : Bool
  now : ℕ

/-- A rank in a body. -/
def rankToJson (r : ScoreRankData) : Json :=
  .obj (JsonObject.ofFields [
    (true, "rank", jsonInt r.rank),
    (true, "npid", .str r.npid),
    (true, "pc_id", jsonInt r.pcId),
    (true, "score", jsonInt r.score),
    (true, "record_date", jsonInt r.recordDate),
    (true, "has_game_data", .bool r.hasGameData),
    (true, "account_id", jsonInt r.accountId)])

/-- The ranks of a board in a body. -/
def ranksToJson (resp : GetScoreResponse) : Json := .arr (resp.rankArray.map rankToJson)

/-- Who is online: in all, and in each game that somebody plays. -/
def buildUsageJson (sh : SharedState) (order : Order String) : JsonObject :=
  let games := (sh.usageGameUsers.inOrder order).filter fun e => 0 < e.2
  JsonObject.ofFields [
    (true, "total_users", jsonInt sh.usageTotalOnline),
    (true, "psn_games", .arr (games.map fun e => .obj (JsonObject.ofFields [
      (true, "com_id", .str e.1),
      (true, "num_users", jsonInt e.2)])))]

/-- The number of accounts, and 0 if the query fails. -/
def totalUsers (db : Database) (exec : Bool) : ℕ := if exec then db.accounts.length else 0

/-- How many accounts there are, or that the database cannot be opened. -/
def buildRegisteredJson (db : Database) (env : StatsEnv) : JsonObject :=
  JsonObject.ofFields [
    (!env.opened, "error", .str "db unavailable"),
    (true, "registered_users", jsonInt (if env.opened then totalUsers db env.exec else 0))]

/-- The boards of a game that are in memory, in the order of their ids. -/
def listBoards (m : ScoreCache) (comId : String) : List ℕ :=
  match m.get? comId with
  | none => []
  | some boards => boards.keys.insertionSort (· ≤ ·)

/-- The fields that tell of a board. -/
def boardFields (m : ScoreCache) (now : ℕ) (comId : String) (boardId : ℕ) :
    List (Bool × String × Json) :=
  let resp := getScoreRange m now comId boardId 1 maxRanksPerBoard false false
  [(true, "board_id", jsonInt boardId),
    (true, "total_record", jsonInt resp.totalRecord),
    (true, "last_sort_date", jsonInt resp.lastSortDate),
    (true, "ranks", ranksToJson resp)]

/-- One round of the loop of `BuildComIdScoreJson`. -/
def boardToJson (m : ScoreCache) (now : ℕ) (comId : String) (boardId : ℕ) : Json :=
  .obj (JsonObject.ofFields (boardFields m now comId boardId))

/-- What `BuildComIdScoreJson` returns. -/
def comIdScoreJson (comId : String) (boardsArr : List Json) : JsonObject :=
  JsonObject.ofFields [(true, "com_id", .str comId), (true, "boards", .arr boardsArr)]

/-- The body for one board. -/
def buildBoardScoreJson (m : ScoreCache) (now : ℕ) (comId : String) (boardId : ℕ) : JsonObject :=
  JsonObject.ofFields ((true, "com_id", .str comId) :: boardFields m now comId boardId)

/-- The `ORDER BY` of the query: by name, and then by game. -/
def titleBefore (a b : String × String) : Bool :=
  decide (a.2 < b.2) || decide (a.2 = b.2) && decide (a.1 ≤ b.1)

/-- The games with scores and their names, empty for those without. -/
def listScoredGameTitles (db : ScoreDb) (titleNames : Table String String) (exec : Bool) :
    List (String × String) :=
  if !exec then []
  else ((db.score.map (·.comId)).dedup.map fun comId =>
    (comId, (titleNames.get? comId).getD "")).mergeSort titleBefore

/-- The games with scores, or that the database cannot be opened. -/
def buildScoreListJson (db : ScoreDb) (titleNames : Table String String) (env : StatsEnv) : JsonObject :=
  let rows := if env.opened then listScoredGameTitles db titleNames env.exec else []
  JsonObject.ofFields [
    (!env.opened, "error", .str "db unavailable"),
    (true, "games", .arr (rows.map fun row => .obj (JsonObject.ofFields [
      (true, "name", .str row.2),
      (true, "commid", .str row.1)])))]

/-! ## Routes -/

/-- The queries that are answered with a body. -/
inductive StatsQuery where
  | usage
  | registered
  | scorelist
  | score (comId : String)
  | board (comId boardStr : String) (boardId : ℕ) (read : toUInt? boardStr = some boardId)

namespace StatsQuery

/-- The segments of a path behind that of the server; nothing is answered with 404. -/
def route : List String → Option StatsQuery
  | ["usage"] => some .usage
  | ["registered"] => some .registered
  | ["scorelist"] => some .scorelist
  | ["score", comId] =>
    if qstringSize comId < 9 ∨ 12 < qstringSize comId then none else some (.score comId)
  | ["score", comId, boardStr] =>
    match read : toUInt? boardStr with
    | none => none
    | some boardId =>
      if qstringSize comId < 9 ∨ 12 < qstringSize comId then none
      else some (.board comId boardStr boardId read)
  | _ => none

/-- The key that the body of a query is kept under. -/
def key : StatsQuery → String
  | usage => "usage"
  | registered => "registered"
  | scorelist => "scorelist"
  | score comId => "score:" ++ comId
  | board comId boardStr _ _ => "board:" ++ comId ++ ":" ++ boardStr

end StatsQuery

/-- How far a body has come. Each lock of the source is one read; the body of a game takes the list of
its boards under one and every board under one of its own. -/
inductive StatsBuild where
  | unread (query : StatsQuery)
  | looping (comId : String) (boards : List ℕ) (boardsArr : List Json)
  | built (root : JsonObject)

/-- One lock section: what it reads of the server goes into the body. -/
def StatsBuild.read (w : ShadNetServer) (env : StatsEnv) : StatsBuild → Option StatsBuild
  | unread .usage => some (built (buildUsageJson w.shared env.order))
  | unread .registered => some (built (buildRegisteredJson w.db env))
  | unread .scorelist => some (built (buildScoreListJson w.scores.scores.db w.titleNames env))
  | unread (.board comId _ boardId _) =>
    some (built (buildBoardScoreJson w.scores.scores.cache env.now comId boardId))
  | unread (.score comId) => some (looping comId (listBoards w.scores.scores.cache comId) [])
  | looping comId (boardId :: boards) boardsArr =>
    some (looping comId boards
      (boardsArr ++ [boardToJson w.scores.scores.cache env.now comId boardId]))
  | looping _ [] _ | built _ => none

/-- The body, once all has been read. -/
def StatsBuild.body : StatsBuild → Option JsonObject
  | looping comId [] boardsArr => some (comIdScoreJson comId boardsArr)
  | built root => some root
  | _ => none

/-- The stats server has the database and the shared state of the other. -/
structure StatsSetup extends NetworkSetup where
  /-- `QJsonDocument::Compact` -/
  toJson : JsonObject → List UInt8
  cacheLife : ℤ

/-- `CachedOrBuild`. -/
def StatsSetup.plan (setup : StatsSetup) :
    ReadThrough.Plan String StatsQuery StatsBuild (List UInt8) StatsEnv ShadNetServer where
  key := StatsQuery.key
  unread := StatsBuild.unread
  read b env w := b.read w env
  value b := b.body.map setup.toJson
  life := setup.cacheLife

/-- Both servers after the first `n` events; their steps may come in any order. -/
def statsAfter (setup : StatsSetup) (start : ServerStart)
    (events : List (CacheEvent NetworkEvent StatsQuery StatsEnv)) (n : ℕ) :
    ShadNetServer × ReadThrough String StatsQuery StatsBuild (List UInt8) :=
  cacheAfter (fun w e => ShadNetServer.step w setup.toNetworkSetup e) setup.plan start.server events n

end ShadNet
