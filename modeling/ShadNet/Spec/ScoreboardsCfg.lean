import ShadNet.Spec.Qt
import ShadNet.Spec.Score

/-!
# scoreboards.cfg

`LoadScoreboardsCfg` sets the boards that the lines of a text define, one line after another. The
text is what is in the file; every write of `SetBoard` succeeds.
-/

namespace ShadNet

open Lib

/-- The rows of `score_table`, as `GetBoard` and `AllBoards` read them. -/
abbrev Boards := Table (String × ℕ) ScoreBoardConfig

/-- What is read of a configuration that was written. The upload size is bound as a text, and the column
holds an integer below `2 ^ 63` only; it turns any other into a REAL, which is read as `ofReal` says. -/
def ScoreBoardConfig.stored (ofReal : ℕ → ℕ) (cfg : ScoreBoardConfig) : ScoreBoardConfig :=
  if cfg.uploadSizeLimit < 2 ^ 63 then cfg
  else { cfg with uploadSizeLimit := ofReal cfg.uploadSizeLimit }

/-- `SetBoard`. -/
def setBoard (ofReal : ℕ → ℕ) (boards : Boards) (comId : String) (boardId : ℕ)
    (cfg : ScoreBoardConfig) : Boards :=
  boards.set (comId, boardId) (cfg.stored ofReal)

/-- `QString::split`, with empty parts. -/
def splitString (sep : Char) (s : String) : List String := (s.toList.splitOn sep).map String.ofList

/-- `QString::toUInt(&ok)` for an unsigned type with values below `bound`: blanks around the number
and a plus sign are allowed. -/
def parseUInt? (bound : ℕ) (s : String) : Option ℕ :=
  let cs := ((s.toList.dropWhile Char.isWhitespace).reverse.dropWhile Char.isWhitespace).reverse
  let n := match cs with
    | '+' :: ds => digits? ds
    | ds => digits? ds
  n.bind fun n => if n < bound then some n else none

/-- `QString::toUInt` in base 10; nothing where `ok` is false. -/
def toUInt? (s : String) : Option ℕ := parseUInt? (2 ^ 32) s

/-- `QString::toULongLong` in base 10; nothing where `ok` is false. -/
def toULongLong? (s : String) : Option ℕ := parseUInt? (2 ^ 64) s

/-! ## Lines -/

/-- The two words for the update mode. -/
def updateMode? (um : String) : Option ℕ :=
  if um = "NORMAL_UPDATE" then some 0 else if um = "FORCE_UPDATE" then some 1 else none

/-- The two words for the sort mode. -/
def sortMode? (sm : String) : Option ℕ :=
  if sm = "DESCENDING_ORDER" then some 0 else if sm = "ASCENDING_ORDER" then some 1 else none

/-- A line with its configuration read, and its table ids not yet. -/
structure BoardLine where
  comId : String
  tableStrs : List String
  cfg : ScoreBoardConfig

section Load

variable (qt : Qt) (ofReal : ℕ → ℕ)

/-- `parseLine` up to the loop over the table ids. -/
def lineHead (line : String) : Option BoardLine :=
  match splitString '|' line with
  | [comId, tables, rankLimit, um, sm, uploadNumLimit, uploadSizeLimit] => do
    let rankLimit ← toUInt? (qt.trimmed rankLimit)
    let updateMode ← updateMode? (qt.trimmed um)
    let sortMode ← sortMode? (qt.trimmed sm)
    let uploadNumLimit ← toUInt? (qt.trimmed uploadNumLimit)
    let uploadSizeLimit ← toULongLong? (qt.trimmed uploadSizeLimit)
    some ⟨qt.trimmed comId, splitString ',' (qt.trimmed tables),
      ⟨rankLimit, updateMode, sortMode, uploadNumLimit, uploadSizeLimit⟩⟩
  | _ => none

/-- The loop over the table ids: a board is set before the next id is read. -/
def setBoards (comId : String) (cfg : ScoreBoardConfig) : List String → Boards → Boards × Bool
  | [], boards => (boards, true)
  | t :: tableStrs, boards =>
    match toUInt? (qt.trimmed t) with
    | none => (boards, false)
    | some tid => setBoards comId cfg tableStrs (setBoard ofReal boards comId tid cfg)

/-- The flag says whether the line is valid. -/
def parseLine (boards : Boards) (line : String) : Boards × Bool :=
  match lineHead qt line with
  | none => (boards, false)
  | some l => setBoards qt ofReal l.comId l.cfg l.tableStrs boards

/-- The lines of the text that are parsed. A text stream drops every carriage return. -/
def cfgLines (text : String) : List String :=
  let chars := text.toList.filter fun ch => ch ≠ '\r'
  let lines := (chars.splitOn '\n').map fun l => qt.trimmed (String.ofList l)
  lines.filter fun line => line ≠ "" ∧ line.toList.head? ≠ some '#'

/-- With the lines that are reported as invalid. -/
def loadScoreboardsCfgText (boards : Boards) (text : String) : Boards × List String :=
  (cfgLines qt text).foldl (fun s line =>
    let r := parseLine qt ofReal s.1 line
    (r.1, if r.2 then s.2 else s.2 ++ [line])) (boards, [])

end Load

end ShadNet
