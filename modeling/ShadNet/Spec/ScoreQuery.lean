import ShadNet.Lib.Wrap
import ShadNet.Spec.ScoreData

/-!
# Score queries

What clients read of the boards: the configuration, the entries of a range of ranks, and those of
given players.
-/

namespace ShadNet

open Lib

/-- A rank in a reply. -/
structure ScoreRankData where
  npid : String := ""
  pcId : ℤ := 0
  rank : ℕ := 0
  score : ℤ := 0
  hasGameData : Bool := false
  recordDate : ℕ := 0
  accountId : ℤ := 0

/-- A list of ranks, with comments and information beside it. -/
structure GetScoreResponse where
  rankArray : List ScoreRankData := []
  commentArray : List String := []
  infoArray : List (List UInt8) := []
  lastSortDate : ℕ := 0
  totalRecord : ℕ := 0

/-- Ranks count from 1, in 32 bits. -/
def toRankData (e : ScoreEntry) (index : ℤ) : ScoreRankData where
  npid := e.npid
  pcId := e.characterId
  rank := ((index + 1) % 2 ^ 32).toNat
  score := e.score
  hasGameData := e.dataId.isSome
  recordDate := e.timestamp
  accountId := e.userId

/-- Comment and information are added only if they were asked for. -/
def appendEntry (resp : GetScoreResponse) (e : ScoreEntry) (idx : ℤ) (withComment withGameInfo : Bool) :
    GetScoreResponse :=
  { resp with
    rankArray := resp.rankArray ++ [toRankData e idx]
    commentArray := resp.commentArray ++ if withComment then [e.comment] else []
    infoArray := resp.infoArray ++ if withGameInfo then [e.gameInfo] else [] }

/-- For a player who is not on the board. -/
def appendBlankEntry (resp : GetScoreResponse) (withComment withGameInfo : Bool) : GetScoreResponse :=
  { resp with
    rankArray := resp.rankArray ++ [{}]
    commentArray := resp.commentArray ++ if withComment then [""] else []
    infoArray := resp.infoArray ++ if withGameInfo then [[]] else [] }

/-- The positions that the loop of `GetScoreRange` goes through; they are `int`s. -/
def scoreRange (startRank numRanks size : ℕ) : List ℤ :=
  let startRank := if startRank = 0 then 1 else startRank
  let start := wrap32 (wrap32 startRank - 1)
  let stop := min (wrap32 (start + wrap32 numRanks)) (wrap32 size)
  (List.range (stop - start).toNat).map fun i : ℕ => start + i

/-- `sorted[i]`; outside the table the source reads what is not there. -/
def ScoreTableCache.entryAt (t : ScoreTableCache) (i : ℤ) : Option ScoreEntry :=
  if i < 0 then none else t.sorted[i.toNat]?

/-- `now` is told for a board that is not in the cache, here and below. -/
def getScoreRange (m : ScoreCache) (now : ℕ) (comId : String) (boardId startRank numRanks : ℕ)
    (withComment withGameInfo : Bool) : GetScoreResponse :=
  match m.table comId boardId with
  | none => { lastSortDate := now }
  | some t =>
    (scoreRange startRank numRanks t.sorted.length).foldl (fun resp i =>
        match t.entryAt i with
        | none => resp
        | some e => appendEntry resp e i withComment withGameInfo)
      { totalRecord := t.sorted.length % 2 ^ 32, lastSortDate := t.lastInsert }

/-- The ranks of the characters that were asked for; one that has none has an empty entry. -/
def getScoreByIds (m : ScoreCache) (now : ℕ) (comId : String) (boardId : ℕ) (ids : List (ℤ × ℤ))
    (withComment withGameInfo : Bool) : GetScoreResponse :=
  let t := m.table comId boardId
  let resp : GetScoreResponse :=
    { totalRecord := (t.map fun t => t.sorted.length % 2 ^ 32).getD 0
      lastSortDate := (t.map (·.lastInsert)).getD now }
  ids.foldl (fun resp id =>
    match t.bind fun t => (t.lookup.find id.1 id.2).bind fun i => (t.sorted[i]?).map fun e => (e, i) with
    | none => appendBlankEntry resp withComment withGameInfo
    | some (e, i) => appendEntry resp e i withComment withGameInfo) resp

/-! ## Commands -/

/-- The request is the board; an unknown one is created. -/
def cmdGetBoardInfos (db : ScoreDb) (created : Bool) (lookup : BoardLookup) :
    Option (String × ℕ) → ScoreDb × Except ErrorType ScoreBoardConfig
  | none => (db, .error .malformed)
  | some (comId, boardId) =>
    match getBoard db comId boardId created lookup with
    | (db, none) => (db, .error .notFound)
    | (db, some cfg) => (db, .ok cfg)

/-- What `GetScoreRange` reads of its request. -/
structure GetScoreRangeRequest where
  boardId : ℕ
  startRank : ℕ
  numRanks : ℕ
  withComment : Bool
  withGameInfo : Bool

/-- `CmdGetScoreRange`. -/
def cmdGetScoreRange (m : ScoreCache) (now : ℕ) (comId : String) :
    Option GetScoreRangeRequest → Except ErrorType GetScoreResponse
  | none => .error .malformed
  | some req =>
    .ok (getScoreRange m now comId req.boardId req.startRank req.numRanks req.withComment
      req.withGameInfo)

/-- What `GetScoreFriends` reads of its request. -/
structure GetScoreFriendsRequest where
  boardId : ℕ
  includeSelf : Bool
  max : ℕ
  withComment : Bool
  withGameInfo : Bool

/-- The caller if he wants, and his friends as they come, until there are enough. -/
def GetScoreFriendsRequest.ids (req : GetScoreFriendsRequest) (userId : ℤ) (friends : List ℤ) :
    List (ℤ × ℤ) :=
  friends.foldl (fun ids fid => if 0 < req.max ∧ req.max ≤ ids.length then ids else ids ++ [(fid, 0)])
    (if req.includeSelf then [(userId, 0)] else [])

/-- `friends` are those of the caller's entry in `clients`. -/
def cmdGetScoreFriends (m : ScoreCache) (now : ℕ) (userId : ℤ) (friends : List ℤ) (comId : String) :
    Option GetScoreFriendsRequest → Except ErrorType GetScoreResponse
  | none => .error .malformed
  | some req =>
    .ok (getScoreByIds m now comId req.boardId (req.ids userId friends) req.withComment
      req.withGameInfo)

/-- What `GetScoreNpid` reads of its request. -/
structure GetScoreNpIdRequest where
  boardId : ℕ
  npids : List (String × ℤ)
  withComment : Bool
  withGameInfo : Bool

/-- A player without an account is looked for under id 0. -/
def cmdGetScoreNpid (userIdForNpid : String → Option ℤ) (m : ScoreCache) (now : ℕ) (comId : String) :
    Option GetScoreNpIdRequest → Except ErrorType GetScoreResponse
  | none => .error .malformed
  | some req =>
    .ok (getScoreByIds m now comId req.boardId
      (req.npids.map fun e => ((userIdForNpid e.1).getD 0, e.2)) req.withComment req.withGameInfo)

/-- What `GetScoreAccountId` reads of its request. -/
structure GetScoreAccountIdRequest where
  boardId : ℕ
  ids : List (ℤ × ℤ)
  withComment : Bool
  withGameInfo : Bool

/-- `CmdGetScoreAccountId`. -/
def cmdGetScoreAccountId (m : ScoreCache) (now : ℕ) (comId : String) :
    Option GetScoreAccountIdRequest → Except ErrorType GetScoreResponse
  | none => .error .malformed
  | some req =>
    .ok (getScoreByIds m now comId req.boardId req.ids req.withComment req.withGameInfo)

end ShadNet
