import ShadNet.Lib.Run
import ShadNet.Lib.Table
import ShadNet.Spec.Protocol

/-!
# Score boards

The `score` and `score_table` tables of the database, the cache of the best entries of
each board, and `RecordScore`, which writes both.
-/

namespace ShadNet

open Lib

/-- The settings of a board, with the defaults of a board that is new. -/
structure ScoreBoardConfig where
  rankLimit : ℕ := 100
  /-- `0` keeps the best score, anything else the latest -/
  updateMode : ℕ := 0
  /-- `0` for higher is better, anything else for lower is better -/
  sortMode : ℕ := 0
  uploadNumLimit : ℕ := 10
  uploadSizeLimit : ℕ := 6000000

/-- A score, as it stands in its board. -/
structure ScoreEntry where
  userId : ℤ
  characterId : ℤ
  score : ℤ
  comment : String
  gameInfo : List UInt8
  dataId : Option ℕ
  timestamp : ℕ
  npid : String

/-- Better scores come first, then earlier ones, then smaller ids of users. -/
def ranksBefore (a b : ScoreEntry) (sortMode : ℕ) : Bool :=
  if a.score ≠ b.score then
    if sortMode = 0 then decide (b.score < a.score) else decide (a.score < b.score)
  else if a.timestamp ≠ b.timestamp then decide (a.timestamp < b.timestamp)
  else decide (a.userId < b.userId)

/-! ## The cache -/

/-- Where a user's character stands in `sorted`. -/
abbrev ScoreLookup := Table ℤ (Table ℤ ℕ)

/-- A board in memory: its entries by rank, where each user's entries are, and its settings. -/
structure ScoreTableCache where
  sorted : List ScoreEntry
  lookup : ScoreLookup
  config : ScoreBoardConfig
  lastInsert : ℕ

/-- `comId` to board id to table. -/
abbrev ScoreCache := Table String (Table ℕ ScoreTableCache)

/-- Where the entry of a character is. -/
def ScoreLookup.find (l : ScoreLookup) (userId characterId : ℤ) : Option ℕ :=
  (l.get? userId).bind fun inner => inner.get? characterId

/-- `lookup[userId][characterId] = i`. -/
def ScoreLookup.put (l : ScoreLookup) (userId characterId : ℤ) (i : ℕ) : ScoreLookup :=
  l.set userId (((l.get? userId).getD ∅).set characterId i)

/-- `lookup[userId].remove(characterId)`. -/
def ScoreLookup.remove (l : ScoreLookup) (userId characterId : ℤ) : ScoreLookup :=
  l.set userId (((l.get? userId).getD ∅).del characterId)

/-- The loop of `Reindex` over the entries from position `i` on. -/
def reindexFrom : List ScoreEntry → ℕ → ScoreLookup → ScoreLookup
  | [], _, l => l
  | e :: es, i, l => reindexFrom es (i + 1) (l.put e.userId e.characterId i)

/-- The places from `start` on are entered anew. -/
def reindex (t : ScoreTableCache) (start : ℕ) : ScoreTableCache :=
  { t with lookup := reindexFrom (t.sorted.drop start) start t.lookup }

/-- The board, if it is in memory. -/
def ScoreCache.table (m : ScoreCache) (comId : String) (boardId : ℕ) : Option ScoreTableCache :=
  (m.get? comId).bind fun inner => inner.get? boardId

/-- The board is put into memory. -/
def ScoreCache.store (m : ScoreCache) (comId : String) (boardId : ℕ) (t : ScoreTableCache) :
    ScoreCache :=
  m.set comId (((m.get? comId).getD ∅).set boardId t)

/-- The table of a board, a new one if it has none. -/
def ScoreCache.getOrCreate (m : ScoreCache) (comId : String) (boardId : ℕ)
    (cfg : ScoreBoardConfig) : ScoreTableCache :=
  (m.table comId boardId).getD ⟨[], ∅, cfg, 0⟩

/-- A board comes into memory with the entries that were read for it. -/
def loadTable (m : ScoreCache) (comId : String) (boardId : ℕ) (cfg : ScoreBoardConfig)
    (entries : List ScoreEntry) (now : ℕ) : ScoreCache :=
  m.store comId boardId ⟨entries, reindexFrom entries 0 ∅, cfg, now⟩

/-- The entry of the slot is taken out, and its position told. -/
def removeSlot (t : ScoreTableCache) (userId characterId : ℤ) : ScoreTableCache × Option ℕ :=
  match t.lookup.find userId characterId with
  | none => (t, none)
  | some pos =>
    (reindex { t with
      sorted := t.sorted.eraseIdx pos, lookup := t.lookup.remove userId characterId } pos, some pos)

/-- The last entry goes when there are too many. -/
def trim (t : ScoreTableCache) (rankLimit : ℕ) : ScoreTableCache :=
  if rankLimit < t.sorted.length then
    match t.sorted.getLast? with
    | none => t
    | some last =>
      { t with
        lookup := t.lookup.remove last.userId last.characterId
        sorted := t.sorted.dropLast }
  else t

/-- `std::lower_bound` on the sorted entries. -/
def insertPos (sorted : List ScoreEntry) (entry : ScoreEntry) (sortMode : ℕ) : ℕ :=
  (sorted.takeWhile fun e => ranksBefore e entry sortMode).length

/-- Where `InsertScore` reindexes from, after it has put an entry at `pos` and perhaps taken
one out before. -/
def reindexStart (pos : ℕ) (removedAt : Option ℕ) : ℕ :=
  match removedAt with
  | none => pos + 1
  | some at' => min (pos + 1) at'

/-- The second half of `InsertScore`, with the rank it returns: the entry is put at its
position if it makes the board. -/
def putEntry (t : ScoreTableCache) (removedAt : Option ℕ) (cfg : ScoreBoardConfig)
    (entry : ScoreEntry) : ScoreTableCache × ℕ :=
  let pos := insertPos t.sorted entry cfg.sortMode
  -- a full board takes the entry too when it ranks before the last one
  let fits := decide (t.sorted.length < cfg.rankLimit) || decide (pos < cfg.rankLimit)
  if !fits then (t, (cfg.rankLimit + 1) % 2 ^ 32)
  else
    let t := { t with
      sorted := t.sorted.take pos ++ entry :: t.sorted.drop pos
      lookup := t.lookup.put entry.userId entry.characterId pos }
    (trim (reindex t (reindexStart pos removedAt)) cfg.rankLimit, pos + 1)

/-- `InsertScore` on the board's table. Sizes and positions are `int`s in the source, which is so for
tables of fewer than `2^31` entries. -/
def insertEntry (t : ScoreTableCache) (cfg : ScoreBoardConfig) (entry : ScoreEntry) (now : ℕ) :
    ScoreTableCache × ℕ :=
  let r := removeSlot { t with lastInsert := now } entry.userId entry.characterId
  putEntry r.1 r.2 cfg entry

/-- A score is put into its board, which is made if it is not there; its rank is told. -/
def insertScore (m : ScoreCache) (comId : String) (boardId : ℕ) (cfg : ScoreBoardConfig)
    (entry : ScoreEntry) (now : ℕ) : ScoreCache × ℕ :=
  let (t, rank) := insertEntry (m.getOrCreate comId boardId cfg) cfg entry now
  (m.store comId boardId t, rank)

/-! ## The database -/

/-- A row of `score`. An empty comment or game info is stored as `NULL` and reads back
empty. -/
structure ScoreRow where
  comId : String
  boardId : ℕ
  userId : ℤ
  characterId : ℤ
  score : ℤ
  comment : String
  gameInfo : List UInt8
  dataId : Option ℕ
  timestamp : ℕ

/-- The tables of boards and of scores. -/
structure ScoreDb where
  boards : Table (String × ℕ) ScoreBoardConfig
  score : List ScoreRow

/-- Why a score is not written. -/
inductive ScoreDbError where
  | internal
  | notBest
  | invalid
deriving DecidableEq, Repr

/-- Whether the two queries of `GetBoard` run, the first one and the one after a board was
created. -/
structure BoardLookup where
  selected : Bool
  reselected : Bool

/-- A lookup in which both statements run. -/
def BoardLookup.runs : BoardLookup := ⟨true, true⟩

/-- `GetBoard` with `createMissing`. A board that the first query does not find gets the default
configuration, if the database takes it. Nothing is found also where the query does not run: then
the default replaces the configuration that the board has. -/
def getBoard (db : ScoreDb) (comId : String) (boardId : ℕ) (created : Bool) (lookup : BoardLookup) :
    ScoreDb × Option ScoreBoardConfig :=
  match if lookup.selected then db.boards.get? (comId, boardId) else none with
  | some cfg => (db, some cfg)
  | none =>
    let db := if created then { db with boards := db.boards.set (comId, boardId) {} } else db
    (db, if lookup.reselected then db.boards.get? (comId, boardId) else none)

/-- The primary key of a row. -/
def ScoreRow.slot (r : ScoreRow) : String × ℕ × ℤ × ℤ :=
  (r.comId, r.boardId, r.userId, r.characterId)

/-- The row of an entry, which has no data yet. -/
def rowOf (comId : String) (boardId : ℕ) (e : ScoreEntry) : ScoreRow :=
  ⟨comId, boardId, e.userId, e.characterId, e.score, e.comment, e.gameInfo, none, e.timestamp⟩

/-- The `WHERE` of the upsert: may `entry` replace the row? -/
def mayReplace (cfg : ScoreBoardConfig) (entry row : ScoreRow) : Bool :=
  -- only an update mode of `0` compares scores
  if cfg.updateMode = 0 then
    if cfg.sortMode = 0 then decide (row.score ≤ entry.score) else decide (entry.score ≤ row.score)
  else true

/-- `INSERT ... ON CONFLICT DO UPDATE ... WHERE`; `exec` says whether the statement runs. -/
def recordScore (db : ScoreDb) (comId : String) (boardId : ℕ) (cfg : ScoreBoardConfig)
    (entry : ScoreEntry) (exec : Bool) : ScoreDb × Option ScoreDbError :=
  let row := rowOf comId boardId entry
  let written := { db with score := row :: db.score.filter fun r => r.slot ≠ row.slot }
  if !exec then (db, some .internal)
  else match db.score.find? fun r => r.slot = row.slot with
    | none => (written, none)
    | some old => if mayReplace cfg row old then (written, none) else (db, some .notBest)

/-- The rows of a board. -/
def ScoreDb.rows (db : ScoreDb) (comId : String) (boardId : ℕ) : List ScoreRow :=
  db.score.filter fun r => r.comId = comId ∧ r.boardId = boardId

/-- A row as an entry; `username` is the join with the accounts. -/
def ScoreRow.toEntry (username : ℤ → String) (r : ScoreRow) : ScoreEntry :=
  ⟨r.userId, r.characterId, r.score, r.comment, r.gameInfo, r.dataId, r.timestamp,
    username r.userId⟩

/-- The `ORDER BY` puts `a` before `b`, or leaves their order open. -/
def orderedBy (sortMode : ℕ) (a b : ScoreRow) : Prop :=
  if a.score ≠ b.score then (if sortMode = 0 then b.score < a.score else a.score < b.score)
  else if a.timestamp ≠ b.timestamp then a.timestamp < b.timestamp
  else a.userId ≤ b.userId

/-- **What `ScoresForBoard` may read**: the first `rankLimit` of the board's rows in an order
that the query asks for. -/
def ScoresForBoard (db : ScoreDb) (username : ℤ → String) (comId : String) (boardId : ℕ)
    (cfg : ScoreBoardConfig) (entries : List ScoreEntry) : Prop :=
  ∃ s : List ScoreRow, s.Perm (db.rows comId boardId) ∧ s.Pairwise (orderedBy cfg.sortMode) ∧
    entries = (s.take cfg.rankLimit).map (ScoreRow.toEntry username)

/-! ## RecordScore -/

/-- What `RecordScore` reads of its request. -/
structure RecordScoreRequest where
  boardId : ℕ
  pcId : ℤ
  score : ℤ
  comment : String
  data : List UInt8

/-- The tables, and the boards in memory. -/
structure ScoreState where
  db : ScoreDb
  cache : ScoreCache

/-- One `RecordScore` command: whose it is, what it carries (nothing if it does not decode), the
time stamps that it takes and whether the database creates a board for it and runs its upsert. -/
structure RecordScore where
  userId : ℤ
  npid : String
  comId : String
  req : Option RecordScoreRequest
  timestamp : ℕ
  insertedAt : ℕ
  created : Bool
  exec : Bool

/-- The entry that a request asks to store. -/
def RecordScore.entry (c : RecordScore) (req : RecordScoreRequest) : ScoreEntry :=
  ⟨c.userId, req.pcId, req.score, req.comment, req.data, none, c.timestamp, c.npid⟩

/-- The error byte and, on success, the rank in the reply. -/
def cmdRecordScore (s : ScoreState) (c : RecordScore) (lookup : BoardLookup) :
    ScoreState × ErrorType × Option ℕ :=
  match c.req with
  | none => (s, .malformed, none)
  | some req =>
    match getBoard s.db c.comId req.boardId c.created lookup with
    | (db, none) => ({ s with db }, .dbFail, none)
    | (db, some cfg) =>
      match recordScore db c.comId req.boardId cfg (c.entry req) c.exec with
      | (db, some .notBest) => ({ s with db }, .scoreNotBest, none)
      | (db, some _) => ({ s with db }, .dbFail, none)
      | (db, none) =>
        -- the cache has its own lock, taken after the statement has run
        let (cache, rank) := insertScore s.cache c.comId req.boardId cfg (c.entry req) c.insertedAt
        (⟨db, cache⟩, .noError, some rank)

/-- The state after the first `n` commands, from empty boards under the given configurations, which
stay: the lookups run. -/
def scoresAfter (boards : Table (String × ℕ) ScoreBoardConfig) (cmds : List RecordScore) (n : ℕ) :
    ScoreState :=
  runAt (fun s c => (cmdRecordScore s c .runs).1) ⟨⟨boards, []⟩, ∅⟩ cmds n

end ShadNet
