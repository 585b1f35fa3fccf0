import ShadNet.Spec.Score

/-!
# Score data

A player may attach a blob to a score. The blob is a file of `ScoreFiles`, which its id names; the
id is kept in the row of the score and in the cached entry. `InitScoreSystem` builds the cache and
the counter of the files anew at every start, and deletes the files that no row refers to.
-/

namespace ShadNet

open Lib

/-! ## Files -/

/-- The directory, by the numbers in the file names, and the id that the next file gets. The
counter has 64 bits in the source; it does not run over. -/
structure ScoreFiles where
  files : Table ℕ (List UInt8) := ∅
  next : ℕ := 1

namespace ScoreFiles

/-- The counter starts behind the largest id. -/
def init (f : ScoreFiles) : ScoreFiles := { f with next := f.files.keys.foldl max 0 + 1 }

/-- The id of the new file, or 0 if it could not be opened. -/
def create (f : ScoreFiles) (data : List UInt8) (opened : Bool) : ScoreFiles × ℕ :=
  let f' := { f with next := f.next + 1 }
  if opened then ({ f' with files := f.files.set f.next data }, f.next) else (f', 0)

/-- The data in the file, if there is one. -/
def read (f : ScoreFiles) (id : ℕ) : Option (List UInt8) := f.files.get? id

/-- Deletes the file. -/
def remove (f : ScoreFiles) (id : ℕ) : ScoreFiles := { f with files := f.files.del id }

/-- Deletes the files that no score refers to. -/
def cleanOrphans (f : ScoreFiles) (validIds : List ℕ) : ScoreFiles :=
  { f with files := f.files.filterMap fun id data => if id ∈ validIds then some data else none }

end ScoreFiles

/-! ## The cache -/

/-- Why data is not taken for a score. -/
inductive ScoreCacheError where
  | notFound
  | invalid
  | hasData
deriving DecidableEq, Repr

/-- `t.sorted[t.lookup[userId][charId]]`, if the slot is on the board. -/
def ScoreCache.entry (m : ScoreCache) (comId : String) (boardId : ℕ) (userId charId : ℤ) :
    Option ScoreEntry :=
  (m.table comId boardId).bind fun t =>
    (t.lookup.find userId charId).bind fun i => t.sorted[i]?

/-- What speaks against data for a score: nothing if the score is there as the request has it, and
has none. -/
def containsScoreWithNoData (m : ScoreCache) (comId : String) (boardId : ℕ) (userId charId : ℤ)
    (score : ℤ) : Option ScoreCacheError :=
  match m.entry comId boardId userId charId with
  | none => some .notFound
  | some e =>
    if e.score ≠ score then some .invalid
    else if e.dataId.isSome then some .hasData
    else none

/-- The entry is given its data, wherever it stands. -/
def setGameData (m : ScoreCache) (comId : String) (boardId : ℕ) (userId charId : ℤ) (dataId : ℕ) :
    ScoreCache × Option ScoreCacheError :=
  match m.table comId boardId with
  | none => (m, some .notFound)
  | some t =>
    match t.lookup.find userId charId with
    | none => (m, some .notFound)
    | some i =>
      (m.store comId boardId { t with
        sorted := t.sorted.modify i fun e => { e with dataId := some dataId } }, none)

/-- The file of an entry. -/
def getGameDataId (m : ScoreCache) (comId : String) (boardId : ℕ) (userId charId : ℤ) : Option ℕ :=
  (m.entry comId boardId userId charId).bind (·.dataId)

/-- A call that changes the cache. -/
inductive ScoreCall where
  | loadTable (comId : String) (boardId : ℕ) (cfg : ScoreBoardConfig) (entries : List ScoreEntry)
      (now : ℕ)
  | insertScore (comId : String) (boardId : ℕ) (cfg : ScoreBoardConfig) (entry : ScoreEntry)
      (now : ℕ)
  | setGameData (comId : String) (boardId : ℕ) (userId charId : ℤ) (dataId : ℕ)

/-- A call of one of the operations. -/
def ScoreCache.step (m : ScoreCache) : ScoreCall → ScoreCache
  | .loadTable comId boardId cfg entries now => loadTable m comId boardId cfg entries now
  | .insertScore comId boardId cfg entry now =>
    (insertScore m comId boardId cfg entry now).1
  | .setGameData comId boardId userId charId dataId =>
    (setGameData m comId boardId userId charId dataId).1

/-- The cache after the first `n` calls, from an empty one. -/
def scoreCacheAfter (calls : List ScoreCall) (n : ℕ) : ScoreCache :=
  runAt ScoreCache.step ∅ calls n

/-! ## The database -/

/-- `UPDATE score SET data_id=? WHERE ...`; `exec` says whether the statement runs. -/
def setScoreDataId (db : ScoreDb) (comId : String) (boardId : ℕ) (userId charId score : ℤ)
    (dataId : ℕ) (exec : Bool) : ScoreDb × Option ScoreDbError :=
  let named (r : ScoreRow) : Bool := r.slot = (comId, boardId, userId, charId) ∧ r.score = score
  if !exec then (db, some .internal)
  else if db.score.any named then
    ({ db with score := db.score.map fun r =>
        if named r then { r with dataId := some dataId } else r }, none)
  else (db, some .invalid)

/-- The files that rows have. -/
def ScoreDb.allDataIds (db : ScoreDb) : List ℕ := db.score.filterMap (·.dataId)

/-! ## Commands -/

/-- What `InitScoreSystem` sets up. -/
structure ScoreSystem where
  scores : ScoreState
  files : ScoreFiles := {}

/-- What `RecordScoreData` reads of its request. -/
structure RecordScoreGameDataRequest where
  boardId : ℕ
  pcId : ℤ
  score : ℤ

/-- One `RecordScoreData` command: whose it is, the request and the raw data behind it (nothing
where they cannot be read), and whether file and statement work. -/
structure RecordScoreData where
  userId : ℤ
  comId : String
  req : Option RecordScoreGameDataRequest
  rawData : Option (List UInt8)
  opened : Bool
  exec : Bool

/-- `CmdRecordScoreData`: the file is written first, and removed again if the board does not take
it. -/
def cmdRecordScoreData (s : ScoreSystem) (c : RecordScoreData) : ScoreSystem × ErrorType :=
  match c.req, c.rawData with
  | some req, some rawData =>
    match containsScoreWithNoData s.scores.cache c.comId req.boardId c.userId req.pcId req.score with
    | some .notFound => (s, .notFound)
    | some .invalid => (s, .scoreInvalid)
    | some .hasData => (s, .scoreHasData)
    | none =>
      let (files, fileId) := s.files.create rawData c.opened
      if fileId = 0 then ({ s with files }, .dbFail)
      else
        match setGameData s.scores.cache c.comId req.boardId c.userId req.pcId fileId with
        | (_, some _) => ({ s with files := files.remove fileId }, .notFound)
        | (cache, none) =>
          -- how the statement fares is not asked
          let (db, _) := setScoreDataId s.scores.db c.comId req.boardId c.userId req.pcId req.score
            fileId c.exec
          (⟨⟨db, cache⟩, files⟩, .noError)
  | _, _ => (s, .malformed)

/-- What `GetScoreData` and `GetScoreGameDataByAccId` read, once they know the user. -/
def readGameData (s : ScoreSystem) (comId : String) (boardId : ℕ) (userId charId : ℤ) :
    ErrorType × Option (List UInt8) :=
  match getGameDataId s.scores.cache comId boardId userId charId with
  | none => (.notFound, none)
  | some fileId =>
    match s.files.read fileId with
    | none => (.notFound, none)
    | some fileData => (.noError, some fileData)

/-- What `GetScoreGameData` reads of its request. -/
structure GetScoreGameDataRequest where
  npid : String
  boardId : ℕ
  pcId : ℤ

/-- `userIdForNpid` is the account table's answer. -/
def cmdGetScoreData (userIdForNpid : String → Option ℤ) (s : ScoreSystem) (comId : String) :
    Option GetScoreGameDataRequest → ErrorType × Option (List UInt8)
  | none => (.malformed, none)
  | some req =>
    if req.npid = "" then (.malformed, none)
    else match userIdForNpid req.npid with
      | none => (.notFound, none)
      | some userId => readGameData s comId req.boardId userId req.pcId

/-- What `GetScoreGameDataByAccId` reads of its request. -/
structure GetScoreGameDataByAccountIdRequest where
  accountId : ℤ
  boardId : ℕ
  pcId : ℤ

/-- An account id of 0 is no account. -/
def cmdGetScoreGameDataByAccId (s : ScoreSystem) (comId : String) :
    Option GetScoreGameDataByAccountIdRequest → ErrorType × Option (List UInt8)
  | none => (.malformed, none)
  | some req =>
    if req.accountId = 0 then (.malformed, none)
    else readGameData s comId req.boardId req.accountId req.pcId

/-! ## A start of the server -/

/-- What a start finds: the boards of `scoreboards.cfg`, what the query reads of each board, the
order of the boards and the time. -/
structure ScoreStart where
  config : List ((String × ℕ) × ScoreBoardConfig)
  entries : String × ℕ → List ScoreEntry
  order : Order (String × ℕ)
  now : ℕ

/-- The boards of the file are written over those of the table. -/
def loadScoreboardsCfg (db : ScoreDb) (config : List ((String × ℕ) × ScoreBoardConfig)) : ScoreDb :=
  { db with boards := config.foldl (fun boards e => boards.set e.1 e.2) db.boards }

/-- At a start files and boards are read, and then the scores of every board. -/
def initScoreSystem (s : ScoreSystem) (start : ScoreStart) : ScoreSystem :=
  let files := s.files.init
  let db := loadScoreboardsCfg s.scores.db start.config
  let cache := (db.boards.inOrder start.order).foldl (fun m e =>
    loadTable m e.1.1 e.1.2 e.2 (start.entries e.1) start.now) ∅
  ⟨⟨db, cache⟩, files.cleanOrphans db.allDataIds⟩

/-! ## Runs -/

/-- What happens to scores: two commands and a restart. -/
inductive ScoreEvent where
  | recordScore (c : RecordScore) (lookup : BoardLookup)
  | recordScoreData (c : RecordScoreData)
  | restart (start : ScoreStart)

/-- The state and the error byte of the reply, if there is one. -/
def ScoreSystem.step (s : ScoreSystem) : ScoreEvent → ScoreSystem × Option ErrorType
  | .recordScore c lookup =>
    let r := cmdRecordScore s.scores c lookup
    ({ s with scores := r.1 }, some r.2.1)
  | .recordScoreData c =>
    let r := cmdRecordScoreData s c
    (r.1, some r.2)
  | .restart start => (initScoreSystem s start, none)

/-- The state after the first `n` events, from empty tables and an empty directory. -/
def scoreSystemAfter (events : List ScoreEvent) (n : ℕ) : ScoreSystem :=
  runAt (fun s e => (s.step e).1) ⟨⟨⟨∅, []⟩, ∅⟩, {}⟩ events n

end ShadNet
