import Mathlib.Data.List.MinMax
import ShadNet.Proof.ScoreData
import ShadNet.Proof.ShadNetServer

/-!
# What is left of many scores

The table of scores has one row for each user's character on a board, whatever was submitted for it.

* `mayReplace_iff`: the condition of the upsert compares `scoreKey`s.
* `HighScores.submit`: the best of a longer history.
* `best_score_kept`: a row is the best of all that was submitted for it, and the latest of those, as long
  as the lookups of configurations run.
-/

namespace ShadNet

open Lib

variable {s s' : ScoreState} {rows : List ScoreRow} {row old : ScoreRow}

/-- How good a row is. A board that keeps the latest does not look at scores. -/
def scoreKey (cfg : ScoreBoardConfig) (r : ScoreRow) : ℤ :=
  if cfg.updateMode = 0 then if cfg.sortMode = 0 then r.score else -r.score else 0

/-- A row is replaced by one that is no worse. -/
theorem mayReplace_iff (cfg : ScoreBoardConfig) (new old : ScoreRow) :
    mayReplace cfg new old = true ↔ ¬ scoreKey cfg new < scoreKey cfg old := by
  unfold mayReplace scoreKey
  split
  · split
    · rw [decide_eq_true_eq, not_lt]
    · rw [decide_eq_true_eq, neg_lt_neg_iff, not_lt]
  · simp

/-- A row without its data, which comes later. -/
def ScoreRow.bare (r : ScoreRow) : ScoreRow := { r with dataId := none }

/-- The row of a slot. -/
def ScoreDb.row? (db : ScoreDb) (slot : String × ℕ × ℤ × ℤ) : Option ScoreRow :=
  db.score.find? fun r => r.slot = slot

/-- The best of the submissions for a slot, the latest first. -/
def bestOf (cfg : ScoreBoardConfig) (slot : String × ℕ × ℤ × ℤ) (history : List ScoreRow) :
    Option ScoreRow :=
  @List.argmax _ _ Int.instLinearOrder.toPartialOrder.toPreorder Int.instLinearOrder.toDecidableLT
    (scoreKey cfg) ((history.filter fun r => r.slot = slot).map ScoreRow.bare)

/-- A row as good as the one in its place may have it. -/
theorem bestOf_cons (cfg : ScoreBoardConfig) (slot : String × ℕ × ℤ × ℤ) (row : ScoreRow)
    (history : List ScoreRow) :
    bestOf cfg slot (row :: history) =
      if row.slot = slot ∧ (bestOf cfg slot history).all (mayReplace cfg row) = true then some row.bare
      else bestOf cfg slot history := by
  unfold bestOf
  by_cases hslot : row.slot = slot
  · rw [List.filter_cons_of_pos (by simpa using hslot), List.map_cons, List.argmax_cons]
    cases @List.argmax _ _ Int.instLinearOrder.toPartialOrder.toPreorder Int.instLinearOrder.toDecidableLT
        (scoreKey cfg) ((history.filter fun r => r.slot = slot).map ScoreRow.bare) with
    | none => simp [hslot]
    | some best =>
      have hkey : scoreKey cfg row.bare = scoreKey cfg row := rfl
      by_cases hless : scoreKey cfg row < scoreKey cfg best
      · have hno : ¬ mayReplace cfg row best = true := fun h => (mayReplace_iff cfg row best).mp h hless
        simp [hkey, hless, hno]
      · have hyes := (mayReplace_iff cfg row best).mpr hless
        simp [hkey, hless, hyes, hslot]
  · rw [List.filter_cons_of_neg (by simpa using hslot), if_neg fun h => hslot h.1]

/-- **The rows are the best** of the histories, on boards with the configurations. -/
structure HighScores (cfg : String → ℕ → ScoreBoardConfig)
    (before : String × ℕ × ℤ × ℤ → Option ScoreRow) (db : ScoreDb) (history : List ScoreRow) : Prop where
  config : ∀ comId boardId, boardConfig db comId boardId = cfg comId boardId
  best : ∀ slot, (db.row? slot).map ScoreRow.bare =
    bestOf (cfg slot.1 slot.2.1) slot (history ++ (before slot).toList)

/-! ## Submissions -/

/-- What a command submits: a row, unless it does not decode, the board is not to be had or the
statement does not run. -/
def RecordScore.submitted (s : ScoreState) (c : RecordScore) (lookup : BoardLookup) :
    Option ScoreRow :=
  c.req.bind fun req =>
    if (getBoard s.db c.comId req.boardId c.created lookup).2.isSome = true ∧ c.exec = true then
      some (rowOf c.comId req.boardId (c.entry req))
    else none

/-- The row that was written is read back, and no other has changed. -/
theorem row?_written (db : ScoreDb) (row : ScoreRow) (slot : String × ℕ × ℤ × ℤ) :
    ({ db with score := written db.score row } : ScoreDb).row? slot =
      if row.slot = slot then some row else db.row? slot := by
  unfold ScoreDb.row? written
  by_cases hslot : row.slot = slot
  · rw [if_pos hslot]
    exact List.find?_cons_of_pos (by simpa using hslot)
  · rw [if_neg hslot, List.find?_cons_of_neg (by simpa using hslot), List.find?_filter]
    congr 1
    funext r
    by_cases hr : r.slot = slot
    · simp [hr, Ne.symm hslot]
    · simp [hr]

/-- The upsert looks at one row. -/
theorem recordScore_rows (db : ScoreDb) (comId : String) (boardId : ℕ) (cfg : ScoreBoardConfig)
    (e : ScoreEntry) (exec : Bool) :
    let row := rowOf comId boardId e
    (recordScore db comId boardId cfg e exec).1 =
      if exec = true ∧ (db.row? row.slot).all (mayReplace cfg row) = true
      then { db with score := written db.score row } else db := by
  intro row
  unfold recordScore
  cases exec with
  | false => simp
  | true =>
    have hfind : (db.score.find? fun r => r.slot = (rowOf comId boardId e).slot) = db.row? row.slot := rfl
    simp only [Bool.not_true, Bool.false_eq_true, if_false, hfind, true_and]
    cases db.row? row.slot with
    | none => exact (if_pos rfl).symm
    | some old =>
      simp only [Option.all_some]
      by_cases hmay : mayReplace cfg row old = true
      · rw [if_pos hmay, if_pos hmay]
        rfl
      · rw [if_neg hmay, if_neg hmay]

/-- **What a command does to the rows**, if the query for the board runs. -/
theorem cmdRecordScore_rows (s : ScoreState) (c : RecordScore) {lookup : BoardLookup}
    (hselected : lookup.selected = true) :
    (cmdRecordScore s c lookup).1.db.score = (c.submitted s lookup).elim s.db.score fun row =>
      if (s.db.row? row.slot).all (mayReplace (boardConfig s.db row.comId row.boardId) row) = true
      then written s.db.score row else s.db.score := by
  unfold RecordScore.submitted
  cases hreq : c.req with
  | none =>
    unfold cmdRecordScore
    rw [hreq]
    rfl
  | some req =>
    have hscore := getBoard_score s.db c.comId req.boardId c.created lookup
    obtain ⟨-, hfound⟩ := getBoard_config s.db c.comId req.boardId c.created hselected
    rw [cmdRecordScore_db s hreq]
    simp only [Option.bind_some]
    generalize getBoard s.db c.comId req.boardId c.created lookup = g at hscore hfound ⊢
    obtain ⟨db', ocfg⟩ := g
    simp only at hscore hfound ⊢
    cases ocfg with
    | none => simpa using hscore
    | some cfg =>
      obtain rfl := hfound cfg rfl
      have hrow : ∀ slot, db'.row? slot = s.db.row? slot := by
        intro slot
        unfold ScoreDb.row?
        rw [hscore]
      simp only [Option.elim_some, recordScore_rows, hrow, Option.isSome_some, true_and]
      cases c.exec with
      | false => simpa using hscore
      | true =>
        simp only [true_and, if_true, Option.elim_some]
        by_cases hmay : (s.db.row? (rowOf c.comId req.boardId (c.entry req)).slot).all
            (mayReplace (boardConfig s.db c.comId req.boardId) (rowOf c.comId req.boardId (c.entry req)))
            = true
        · rw [if_pos hmay, hscore]
          exact (if_pos hmay).symm
        · rw [if_neg hmay]
          exact hscore.trans (if_neg hmay).symm

/-- **The best of a longer history.** -/
theorem HighScores.submit {cfg : String → ℕ → ScoreBoardConfig}
    {before : String × ℕ × ℤ × ℤ → Option ScoreRow} {s : ScoreState} {history : List ScoreRow}
    (h : HighScores cfg before s.db history) (c : RecordScore) {lookup : BoardLookup}
    (hselected : lookup.selected = true) :
    HighScores cfg before (cmdRecordScore s c lookup).1.db
      ((c.submitted s lookup).toList ++ history) := by
  refine ⟨fun comId boardId => (cmdRecordScore_config s c hselected comId boardId).trans
    (h.config comId boardId), fun slot => ?_⟩
  unfold ScoreDb.row?
  rw [cmdRecordScore_rows s c hselected]
  cases c.submitted s lookup with
  | none => exact h.best slot
  | some row =>
    rw [Option.toList_some, List.singleton_append, List.cons_append, bestOf_cons, ← h.best slot]
    have hwritten := row?_written s.db row slot
    unfold ScoreDb.row? at hwritten
    by_cases hslot : row.slot = slot
    · subst hslot
      have hcfg : cfg row.slot.1 row.slot.2.1 = boardConfig s.db row.comId row.boardId :=
        (h.config row.comId row.boardId).symm
      -- what stands in the slot is compared without its data
      have hall : ((s.db.row? row.slot).map ScoreRow.bare).all (mayReplace (cfg row.slot.1 row.slot.2.1) row) =
          (s.db.row? row.slot).all (mayReplace (boardConfig s.db row.comId row.boardId) row) := by
        rw [hcfg]
        cases s.db.row? row.slot <;> rfl
      rw [hall, Option.elim_some]
      by_cases hmay : (s.db.row? row.slot).all (mayReplace (boardConfig s.db row.comId row.boardId) row)
          = true
      · rw [if_pos hmay, if_pos ⟨rfl, hmay⟩, hwritten, if_pos rfl, Option.map_some]
      · rw [if_neg hmay, if_neg fun h => hmay h.2]
        rfl
    · rw [if_neg fun h => hslot h.1, Option.elim_some]
      split
      · rw [hwritten, if_neg hslot]
        rfl
      · rfl

/-! ## Runs -/

theorem row?_map {db : ScoreDb} {f : ScoreRow → ScoreRow} (hf : ∀ r, (f r).bare = r.bare)
    (slot : String × ℕ × ℤ × ℤ) :
    (({ db with score := db.score.map f } : ScoreDb).row? slot).map ScoreRow.bare =
      (db.row? slot).map ScoreRow.bare := by
  have hslot : ∀ r, (f r).slot = r.slot := by
    intro r
    change (f r).bare.slot = r.bare.slot
    rw [hf]
  unfold ScoreDb.row?
  rw [List.find?_map, Option.map_map]
  have hpred : ((fun r : ScoreRow => decide (r.slot = slot)) ∘ f) = fun r => decide (r.slot = slot) := by
    funext r
    rw [Function.comp_apply, hslot]
  rw [hpred]
  congr 1
  funext r
  exact hf r

/-- Data comes to a row that has none, and changes nothing else. -/
theorem HighScores.data {cfg : String → ℕ → ScoreBoardConfig}
    {before : String × ℕ × ℤ × ℤ → Option ScoreRow} {s : ScoreSystem} {history : List ScoreRow}
    (h : HighScores cfg before s.scores.db history) (c : RecordScoreData) :
    HighScores cfg before (cmdRecordScoreData s c).1.scores.db history := by
  have hset : ∀ comId boardId userId charId score dataId exec, HighScores cfg before
      (setScoreDataId s.scores.db comId boardId userId charId score dataId exec).1 history := by
    intro comId boardId userId charId score dataId exec
    unfold setScoreDataId
    simp only
    split
    · exact h
    · split
      · refine ⟨h.config, fun slot => ?_⟩
        rw [row?_map, h.best]
        intro r
        split <;> rfl
      · exact h
  unfold cmdRecordScoreData
  split
  · split
    · exact h
    · exact h
    · exact h
    · simp only
      split
      · exact h
      · split
        · exact h
        · exact hset _ _ _ _ _ _ _
  · exact h

/-- The rows that a packet submits. -/
def ShadNetServer.submitted (setup : NetworkSetup) (w : ShadNetServer) (e : NetworkEvent) :
    List ScoreRow :=
  (w.scoreEvents setup e).filterMap fun
    | .recordScore c lookup => c.submitted w.scores.scores lookup
    | _ => none

/-- The rows submitted by the first `n` events, in this order. -/
def networkSubmissions (setup : NetworkSetup) (start : ServerStart) (events : List NetworkEvent)
    (n : ℕ) : List ScoreRow :=
  answers (fun w e => ShadNetServer.step w setup e) (ShadNetServer.submitted setup) start.server events n

/-- If a command looks up the configuration of a board, the query runs. -/
def NetworkEvent.Selects : NetworkEvent → Prop
  | .process _ env => env.score.lookup.selected = true
  | _ => True

/-- A packet is at most one event of the score system, and no restart of it. -/
theorem scoreEvents_cases (setup : NetworkSetup) (w : ShadNetServer) {e : NetworkEvent}
    (hselects : e.Selects) :
    w.scoreEvents setup e = [] ∨
      (∃ c lookup, lookup.selected = true ∧ w.scoreEvents setup e = [.recordScore c lookup]) ∨
      ∃ c, w.scoreEvents setup e = [.recordScoreData c] := by
  have hpacket : ∀ (env : DispatchEnv) s (p : Packet), env.score.lookup.selected = true →
      p.scoreEvents setup.toServerSetup env s = [] ∨
      (∃ c lookup, lookup.selected = true ∧
        p.scoreEvents setup.toServerSetup env s = [.recordScore c lookup]) ∨
      ∃ c, p.scoreEvents setup.toServerSetup env s = [.recordScoreData c] := by
    intro env s p hselected
    unfold Packet.scoreEvents
    simp only
    split
    · split
      · cases decodeBoard env.outside p.payload with
        | none => exact Or.inl rfl
        | some board => exact Or.inr (Or.inl ⟨_, _, hselected, rfl⟩)
      · exact Or.inr (Or.inl ⟨_, _, hselected, rfl⟩)
      · exact Or.inr (Or.inr ⟨_, rfl⟩)
      · exact Or.inl rfl
    · exact Or.inl rfl
  cases e with
  | process c env =>
    unfold ShadNetServer.scoreEvents
    simp only
    split
    · exact Or.inl rfl
    · split
      · exact Or.inl rfl
      · exact hpacket _ _ _ hselects
  | _ => exact Or.inl rfl

/-- **The rows stay the best of what is submitted.** -/
theorem step_highScores (setup : NetworkSetup) {cfg : String → ℕ → ScoreBoardConfig}
    {before : String × ℕ × ℤ × ℤ → Option ScoreRow} {e : NetworkEvent} (hselects : e.Selects)
    (w : ShadNetServer) (history : List ScoreRow)
    (h : HighScores cfg before w.scores.scores.db history) :
    HighScores cfg before (w.step setup e).scores.scores.db
      ((w.submitted setup e).foldl (fun history row => row :: history) history) := by
  have hscores := step_scores setup w w.scores e rfl
  simp only at hscores ⊢
  rw [hscores]
  unfold ShadNetServer.submitted
  rcases scoreEvents_cases setup w hselects with hnone | ⟨c, lookup, hselected, hrecord⟩ | ⟨c, hdata⟩
  · rw [hnone]
    exact h
  · rw [hrecord]
    have hsubmit := h.submit c hselected
    cases hrow : c.submitted w.scores.scores lookup with
    | none =>
      rw [hrow] at hsubmit
      simpa [hrow, scoreStep, ScoreSystem.step] using hsubmit
    | some row =>
      rw [hrow] at hsubmit
      simpa [hrow, scoreStep, ScoreSystem.step] using hsubmit
  · rw [hdata]
    exact h.data c

/-- **The best score is kept.** As long as the lookups of configurations run, the row of a user's character
on a board is the best of everything that was submitted for it since the start, or of that and the row that
the start found, under the configuration of the board; among equals it is the latest. Without a submission
there is no row but that one. -/
theorem best_score_kept (setup : NetworkSetup) (start : ServerStart) (events : List NetworkEvent)
    (hselects : ∀ e ∈ events, e.Selects) (n : ℕ) (slot : String × ℕ × ℤ × ℤ) :
    let db := (networkAfter setup start events n).scores.scores.db
    let before := start.scores.scores.db
    (db.row? slot).map ScoreRow.bare = bestOf (boardConfig before slot.1 slot.2.1) slot
      ((networkSubmissions setup start events n).reverse ++ (before.row? slot).toList) := by
  intro db before
  have h0 : HighScores (boardConfig before) before.row? start.server.scores.scores.db [] := by
    refine ⟨fun _ _ => rfl, fun slot => ?_⟩
    have hbefore : start.server.scores.scores.db = before := rfl
    rw [hbefore, List.nil_append]
    unfold bestOf
    cases hrow : before.row? slot with
    | none => rfl
    | some row =>
      have hslot : row.slot = slot := by simpa using List.find?_some hrow
      simp [hslot]
  have hrun := run_of_steps
    (R := fun (w : ShadNetServer) history =>
      HighScores (boardConfig before) before.row? w.scores.scores.db history)
    (fun e he w history h => step_highScores setup (hselects e he) w history h) h0 n
  rw [List.foldl_flip_cons_eq_append', List.append_nil] at hrun
  exact hrun.best slot

/-! ### Her second score is lower -/

/-- A request to log in. -/
def loginFrame : RequestFrame := ⟨0, 1, [1, 0, 0, 0, 0], by decide⟩

/-- `RecordScore` with a message of one byte. -/
def scoreFrame (packetId : UInt64) (msg : UInt8) : RequestFrame where
  command := 31
  packetId := packetId
  payload := List.replicate 12 65 ++ [1, 0, 0, 0, msg]
  size_le := by simp [headerSize, maxPacketSize]

/-- Each message of a score is the score. -/
def twoScoresSetup : NetworkSetup := { NetworkSetup.plain with
  messages := { Messages.none with
    login := fun _ => some { npid := "alice", password := "alice" }
    recordScore := fun msg => msg.head?.map fun score => ⟨1, 0, (score.toNat : ℤ), "", []⟩ } }

/-- A client logs in and sends two scores at once. -/
def twoScores : List NetworkEvent :=
  [.connect "10.0.0.2", .receive 0 (stream RequestFrame.bytes [loginFrame,
      scoreFrame 2 9, scoreFrame 3 7]),
    .process 0 .plain, .process 0 .plain, .process 0 .plain]

theorem best_score_kept_alice :
    let submitted := networkSubmissions twoScoresSetup .plain twoScores 5
    let db := (networkAfter twoScoresSetup .plain twoScores 5).scores.scores.db
    let slot := ("AAAAAAAAAAAA", 1, 1, 0)
    submitted.map (·.score) = [9, 7] ∧
      (db.row? slot).map ScoreRow.bare = bestOf {} slot submitted.reverse := by
  intro submitted db slot
  refine ⟨by decide +kernel, ?_⟩
  have hselects : ∀ e ∈ twoScores, e.Selects := by
    intro e he
    simp only [twoScores, List.mem_cons, List.not_mem_nil, or_false] at he
    rcases he with rfl | rfl | rfl | rfl | rfl
    · trivial
    · trivial
    all_goals rfl
  have hbest := best_score_kept twoScoresSetup .plain twoScores hselects 5 slot
  have hnone : (ServerStart.plain.scores.scores.db.row? slot).toList = [] := rfl
  simp only [hnone, List.append_nil] at hbest
  exact hbest

end ShadNet
