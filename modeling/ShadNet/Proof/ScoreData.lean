import ShadNet.Proof.Score
import ShadNet.Spec.ScoreData

/-!
# The blobs of scores

* `Uploads`: what clients have uploaded for the score that each slot has now, told from commands and
  replies.
* `ScoreDataInv`: rows, cached entries and files agree with each other and with the uploads.
* `score_data_ok`: so in every state that commands and restarts reach, a row names the blob that was
  uploaded for it, no two rows name one file, new files are new, and the cache names what the row
  names.
-/

namespace ShadNet

open Lib

variable {s : ScoreSystem} {t : ScoreTableCache} {e x : ScoreEntry} {comId comId' : String}
  {boardId boardId' i : ℕ} {u c : ℤ}

/-! ## What was uploaded -/

/-- Board, user and character to the blob. -/
abbrev Uploads := Table (String × ℕ × ℤ × ℤ) (List UInt8)

/-- A score that is accepted has no blob yet; a blob that is accepted belongs to the score. -/
def Uploads.step (uploads : Uploads) (reply : Option ErrorType) : ScoreEvent → Uploads
  | .recordScore c _ =>
    match c.req with
    | none => uploads
    | some req =>
      if reply = some .noError then uploads.del (c.comId, req.boardId, c.userId, req.pcId)
      else uploads
  | .recordScoreData c =>
    match c.req, c.rawData with
    | some req, some rawData =>
      if reply = some .noError then uploads.set (c.comId, req.boardId, c.userId, req.pcId) rawData
      else uploads
    | _, _ => uploads
  | .restart _ => uploads

/-- The system, and what its clients know. -/
structure TrackedScores where
  system : ScoreSystem
  uploads : Uploads

/-- The system after an event, and the uploads that it has taken. -/
def TrackedScores.step (w : TrackedScores) (e : ScoreEvent) : TrackedScores :=
  let r := w.system.step e
  ⟨r.1, w.uploads.step r.2 e⟩

/-- Both after the first `n` events, from empty tables. -/
def trackedScoresAfter (events : List ScoreEvent) (n : ℕ) : TrackedScores :=
  runAt TrackedScores.step ⟨⟨⟨⟨∅, []⟩, ∅⟩, {}⟩, ∅⟩ events n

/-! ## Tables -/

/-- What an insertion leaves: the new entry, and entries of other slots that were there. -/
theorem mem_insertEntry (h : LookupOk t) {cfg : ScoreBoardConfig} {now : ℕ}
    (hx : x ∈ (insertEntry t cfg e now).1.sorted) : x = e ∨ (x ∈ t.sorted ∧ x.slot ≠ e.slot) := by
  have hothers : ∀ x ∈ others t e, x ∈ t.sorted ∧ x.slot ≠ e.slot := by
    intro x hx
    obtain ⟨-, hno, hcases⟩ := removeSlot_ok h e.userId e.characterId
    refine ⟨?_, fun heq => hno ?_⟩
    · unfold others at hx
      rcases hcases with ⟨-, hsame⟩ | ⟨l1, o, l2, hl, -, hmoved⟩
      · rwa [hsame] at hx
      · rw [hmoved] at hx
        rw [hl]
        rcases List.mem_append.mp hx with h1 | h2
        · exact List.mem_append_left _ h1
        · exact List.mem_append_right _ (List.mem_cons_of_mem _ h2)
    · have hmem := List.mem_map_of_mem (f := ScoreEntry.slot) hx
      rwa [heq] at hmem
  have hput : ∀ pos, x ∈ insertAt (others t e) pos e → x = e ∨ (x ∈ t.sorted ∧ x.slot ≠ e.slot) := by
    intro pos hmem
    rcases List.mem_cons.mp ((insertAt_perm _ _ _).mem_iff.mp hmem) with rfl | hold
    · exact Or.inl rfl
    · exact Or.inr (hothers x hold)
  rw [(insertEntry_ok h cfg e now).2] at hx
  split at hx
  · simp only at hx
    split at hx
    · exact hput _ ((List.dropLast_sublist _).subset hx)
    · exact hput _ hx
  · exact Or.inr (hothers x hx)

/-- What the lookup finds is the entry of the slot. -/
theorem LookupOk.entry (h : LookupOk t) (hfind : t.lookup.find u c = some i)
    (hget : t.sorted[i]? = some e) : e.slot = (u, c) := by
  obtain ⟨l1, o, l2, hl, rfl, hslot⟩ := h.get hfind
  rw [hl, List.getElem?_append_right le_rfl, Nat.sub_self] at hget
  obtain rfl := Option.some.inj hget
  exact hslot

/-- What does not depend on the data of an entry does not see it change. -/
theorem map_setData {β : Type*} {f : ScoreEntry → β} {dataId : ℕ}
    (hf : ∀ e, f { e with dataId := some dataId } = f e) (l : List ScoreEntry) (i : ℕ) :
    (l.modify i fun e => { e with dataId := some dataId }).map f = l.map f := by
  refine List.ext_getElem? fun j => ?_
  rw [List.getElem?_map, List.getElem?_modify, List.getElem?_map]
  cases l[j]? with
  | none => rfl
  | some e =>
    simp only [Option.map_eq_map, Option.map_some]
    split
    · rw [hf]
    · rfl

/-- The data of an entry is no part of its slot. -/
theorem LookupOk.setData (h : LookupOk t) (i dataId : ℕ) :
    LookupOk { t with sorted := t.sorted.modify i fun e => { e with dataId := some dataId } } := by
  have hslots : (t.sorted.modify i fun e => { e with dataId := some dataId }).map ScoreEntry.slot =
      t.sorted.map ScoreEntry.slot := map_setData (fun _ => rfl) t.sorted i
  refine ⟨hslots ▸ h.slots, ?_, fun u c hno => h.missing u c (hslots ▸ hno)⟩
  intro j e he
  rw [List.getElem?_modify] at he
  cases hj : t.sorted[j]? with
  | none => simp [hj] at he
  | some o =>
    rw [hj, Option.map_eq_map, Option.map_some] at he
    have hfound := h.found j o hj
    obtain rfl := Option.some.inj he
    split <;> exact hfound

theorem loaded_lookupOk {entries : List ScoreEntry} (hnd : (entries.map ScoreEntry.slot).Nodup)
    (cfg : ScoreBoardConfig) (now : ℕ) : LookupOk ⟨entries, reindexFrom entries 0 ∅, cfg, now⟩ := by
  have hreindexed : LookupOk (reindex ⟨entries, ∅, cfg, now⟩ 0) :=
    reindex_lookupOk hnd (fun i e hi => absurd hi (by omega)) fun _ _ _ => rfl
  exact hreindexed

/-! ## The invariant -/

/-- Rows, cached entries, files and uploads agree. -/
structure ScoreDataInv (s : ScoreSystem) (uploads : Uploads) : Prop where
  scores : ScoreInv s.scores
  entries : ∀ comId boardId, ∀ e ∈ cached s.scores.cache comId boardId, ∃ r ∈ s.scores.db.score,
    r.slot = (comId, boardId, e.userId, e.characterId) ∧ r.score = e.score ∧ r.dataId = e.dataId
  named : ∀ r ∈ s.scores.db.score, ∀ id, r.dataId = some id →
    ∃ blob, s.files.read id = some blob ∧ uploads.get? r.slot = some blob
  apart : ∀ r ∈ s.scores.db.score, ∀ r' ∈ s.scores.db.score, ∀ id,
    r.dataId = some id → r'.dataId = some id → r.slot = r'.slot
  below : ∀ id blob, s.files.read id = some blob → id < s.files.next
  pos : 0 < s.files.next

variable {uploads : Uploads}

/-- A slot has one row. -/
theorem ScoreInv.row_unique {s : ScoreState} (h : ScoreInv s) {r r' : ScoreRow} (hr : r ∈ s.db.score)
    (hr' : r' ∈ s.db.score) (hslot : r.slot = r'.slot) : r = r' :=
  List.inj_on_of_nodup_map h.slots hr hr' hslot

/-- The cached entries of a board in memory. -/
theorem cached_of_table {m : ScoreCache} (ht : m.table comId boardId = some t) :
    cached m comId boardId = t.sorted := by
  unfold cached
  rw [ht]
  rfl

theorem entry_eq_some {m : ScoreCache} : m.entry comId boardId u c = some e ↔
    ∃ t i, m.table comId boardId = some t ∧ t.lookup.find u c = some i ∧ t.sorted[i]? = some e := by
  unfold ScoreCache.entry
  constructor
  · intro he
    obtain ⟨t, ht, he⟩ := Option.bind_eq_some_iff.mp he
    obtain ⟨i, hi, he⟩ := Option.bind_eq_some_iff.mp he
    exact ⟨t, i, ht, hi, he⟩
  · rintro ⟨t, i, ht, hi, he⟩
    rw [ht, Option.bind_some, hi, Option.bind_some, he]

/-- What the cache has for a slot is cached under it. -/
theorem ScoreInv.entry {s : ScoreState} (h : ScoreInv s)
    (he : s.cache.entry comId boardId u c = some e) :
    ∃ t i, s.cache.table comId boardId = some t ∧ t.lookup.find u c = some i ∧
      t.sorted[i]? = some e ∧ e.slot = (u, c) ∧ e ∈ cached s.cache comId boardId := by
  obtain ⟨t, i, ht, hi, he⟩ := entry_eq_some.mp he
  refine ⟨t, i, ht, hi, he, (h.lookup _ _ t ht).entry hi he, ?_⟩
  rw [cached_of_table ht]
  exact List.mem_of_getElem? he

/-! ## RecordScore -/

/-- Writing a row replaces that of its slot. -/
theorem mem_written {rows : List ScoreRow} {row r : ScoreRow} :
    r ∈ written rows row ↔ r = row ∨ (r ∈ rows ∧ r.slot ≠ row.slot) := by
  unfold written
  rw [List.mem_cons, List.mem_filter, decide_eq_true_iff]

/-- **An accepted score** has no data, and the slot's old row and entry are gone. -/
theorem ScoreDataInv.records (h : ScoreDataInv s uploads) {cmd : RecordScore} {req : RecordScoreRequest}
    {cfg : ScoreBoardConfig} {scores : ScoreState} (hscores : ScoreInv scores)
    (hr : Records s.scores cmd req cfg scores) :
    ScoreDataInv { s with scores } (uploads.del (cmd.comId, req.boardId, cmd.userId, req.pcId)) := by
  have hkept : ∀ r ∈ scores.db.score, ∀ id, r.dataId = some id → r ∈ s.scores.db.score ∧
      r.slot ≠ (cmd.comId, req.boardId, cmd.userId, req.pcId) := by
    intro r hmem id hid
    rw [hr.score] at hmem
    rcases mem_written.mp hmem with rfl | hold
    · cases hid
    · exact hold
  refine ⟨hscores, ?_, ?_, ?_, h.below, h.pos⟩
  · intro comId boardId x hx
    rw [hr.cache, cached_insertScore] at hx
    simp only [hr.score, mem_written]
    -- an entry that was cached before has a row of another slot
    have hold : ∀ x ∈ cached s.scores.cache comId boardId,
        (comId, boardId, x.userId, x.characterId) ≠
          (rowOf cmd.comId req.boardId (cmd.entry req)).slot →
        ∃ r, (r = rowOf cmd.comId req.boardId (cmd.entry req) ∨ (r ∈ s.scores.db.score ∧
            r.slot ≠ (rowOf cmd.comId req.boardId (cmd.entry req)).slot)) ∧
          r.slot = (comId, boardId, x.userId, x.characterId) ∧ r.score = x.score ∧
          r.dataId = x.dataId := by
      intro x hx hne
      obtain ⟨r, hmem, hslot, hrest⟩ := h.entries comId boardId x hx
      exact ⟨r, Or.inr ⟨hmem, hslot ▸ hne⟩, hslot, hrest⟩
    by_cases hboard : (comId, boardId) = (cmd.comId, req.boardId)
    · obtain ⟨rfl, rfl⟩ := Prod.mk.inj hboard
      rw [if_pos rfl] at hx
      obtain ⟨hok, hsorted⟩ := getOrCreate_ok h.scores cmd.comId req.boardId cfg
      rcases mem_insertEntry hok hx with rfl | ⟨hmem, hne⟩
      · exact ⟨_, Or.inl rfl, rfl, rfl, rfl⟩
      · rw [hsorted] at hmem
        refine hold x hmem fun heq => hne ?_
        have hslot := (Prod.mk.inj (Prod.mk.inj heq).2).2
        exact hslot
    · rw [if_neg hboard] at hx
      refine hold x hx fun heq => hboard ?_
      obtain ⟨hcom, hrest⟩ := Prod.mk.inj heq
      exact Prod.ext hcom (Prod.mk.inj hrest).1
  · intro r hmem id hid
    obtain ⟨hold, hne⟩ := hkept r hmem id hid
    obtain ⟨blob, hfile, hup⟩ := h.named r hold id hid
    exact ⟨blob, hfile, (Table.get?_del_ne hne).trans hup⟩
  · intro r hmem r' hmem' id hid hid'
    exact h.apart r (hkept r hmem id hid).1 r' (hkept r' hmem' id hid').1 id hid hid'

/-- Recording a score keeps the invariant. -/
theorem ScoreDataInv.recordScore (h : ScoreDataInv s uploads) (cmd : RecordScore)
    (lookup : BoardLookup) :
    ScoreDataInv (s.step (.recordScore cmd lookup)).1
      (uploads.step (s.step (.recordScore cmd lookup)).2 (.recordScore cmd lookup)) := by
  have hscores := cmdRecordScore_inv h.scores cmd lookup
  unfold ScoreSystem.step Uploads.step
  simp only [Option.some.injEq]
  rcases cmdRecordScore_cases h.scores cmd lookup with ⟨hr, herr, -⟩ | ⟨req, cfg, hr, hok, -⟩
  · -- rows and entries are as they were
    have hsame : ScoreDataInv { s with scores := (cmdRecordScore s.scores cmd lookup).1 } uploads := by
      refine ⟨hscores, ?_, ?_, ?_, h.below, h.pos⟩
      · simp only [hr.cache, hr.score]
        exact h.entries
      · simp only [hr.score]
        exact h.named
      · simp only [hr.score]
        exact h.apart
    cases cmd.req with
    | none => exact hsame
    | some req =>
      simp only [herr, if_false]
      exact hsame
  · simp only [hr.request, hok, if_true]
    exact h.records hscores hr

/-! ## RecordScoreData -/

theorem setGameData_eq {m : ScoreCache} (ht : m.table comId boardId = some t)
    (hfind : t.lookup.find u c = some i) (dataId : ℕ) :
    setGameData m comId boardId u c dataId = (m.store comId boardId { t with
      sorted := t.sorted.modify i fun e => { e with dataId := some dataId } }, none) := by
  unfold setGameData
  simp only [ht, hfind]

/-- Data is accepted if the entry has the score and no data yet. -/
theorem containsScoreWithNoData_none {m : ScoreCache} {score : ℤ} :
    containsScoreWithNoData m comId boardId u c score = none ↔
      ∃ e, m.entry comId boardId u c = some e ∧ e.score = score ∧ e.dataId = none := by
  unfold containsScoreWithNoData
  cases m.entry comId boardId u c with
  | none => simp
  | some e =>
    by_cases hscore : e.score = score
    · cases hdata : e.dataId <;> simp [hscore, hdata]
    · simp [hscore]

/-- The request gets as far as the update: its slot has the score and no data, and there is a file. -/
def RecordScoreData.Reaches (s : ScoreSystem) (cmd : RecordScoreData)
    (req : RecordScoreGameDataRequest) : Prop :=
  cmd.req = some req ∧ cmd.rawData.isSome = true ∧
    containsScoreWithNoData s.scores.cache cmd.comId req.boardId cmd.userId req.pcId req.score = none ∧
    cmd.opened = true

/-- What is accepted goes to a slot of the board that has the score and no data yet. -/
structure AcceptsData (s : ScoreSystem) (cmd : RecordScoreData) (req : RecordScoreGameDataRequest)
    (rawData : List UInt8) : Prop where
  request : cmd.req = some req
  data : cmd.rawData = some rawData
  slot : ∃ e, s.scores.cache.entry cmd.comId req.boardId cmd.userId req.pcId = some e ∧
    e.score = req.score ∧ e.dataId = none
  result : cmdRecordScoreData s cmd =
    (⟨⟨(setScoreDataId s.scores.db cmd.comId req.boardId cmd.userId req.pcId req.score s.files.next
          cmd.exec).1,
        (setGameData s.scores.cache cmd.comId req.boardId cmd.userId req.pcId s.files.next).1⟩,
      ⟨s.files.files.set s.files.next rawData, s.files.next + 1⟩⟩, .noError)

/-- **What a command does.** At most an id is lost if it is refused. -/
theorem cmdRecordScoreData_cases (hpos : 0 < s.files.next) (cmd : RecordScoreData) :
    ((∃ e next, cmdRecordScoreData s cmd = ({ s with files := { s.files with next } }, e) ∧
      e ≠ .noError ∧ s.files.next ≤ next) ∧ ∀ req, ¬ cmd.Reaches s req) ∨
    ∃ req rawData, AcceptsData s cmd req rawData ∧ cmd.Reaches s req := by
  have hrefused : ∀ e, e ≠ .noError → cmdRecordScoreData s cmd = (s, e) →
      (∀ req, ¬ cmd.Reaches s req) →
      (∃ e next, cmdRecordScoreData s cmd = ({ s with files := { s.files with next } }, e) ∧
        e ≠ .noError ∧ s.files.next ≤ next) ∧ ∀ req, ¬ cmd.Reaches s req :=
    fun e he heq hnot => ⟨⟨e, s.files.next, heq, he, le_rfl⟩, hnot⟩
  cases hreq : cmd.req with
  | none =>
    refine Or.inl (hrefused .malformed nofun ?_ fun req h => nomatch hreq.symm.trans h.1)
    unfold cmdRecordScoreData
    simp only [hreq]
  | some req =>
    cases hraw : cmd.rawData with
    | none =>
      refine Or.inl (hrefused .malformed nofun ?_ fun req h => by simpa [hraw] using h.2.1)
      unfold cmdRecordScoreData
      simp only [hreq, hraw]
    | some rawData =>
      cases hcheck : containsScoreWithNoData s.scores.cache cmd.comId req.boardId cmd.userId req.pcId
          req.score with
      | some err =>
        have hnot : ∀ req', ¬ cmd.Reaches s req' := by
          rintro req' ⟨hreq', -, hnone, -⟩
          obtain rfl := Option.some.inj (hreq.symm.trans hreq')
          rw [hcheck] at hnone
          cases hnone
        cases err with
        | notFound =>
          refine Or.inl (hrefused .notFound nofun ?_ hnot)
          unfold cmdRecordScoreData
          simp only [hreq, hraw, hcheck]
        | invalid =>
          refine Or.inl (hrefused .scoreInvalid nofun ?_ hnot)
          unfold cmdRecordScoreData
          simp only [hreq, hraw, hcheck]
        | hasData =>
          refine Or.inl (hrefused .scoreHasData nofun ?_ hnot)
          unfold cmdRecordScoreData
          simp only [hreq, hraw, hcheck]
      | none =>
        cases hopened : cmd.opened with
        | false =>
          refine Or.inl ⟨⟨.dbFail, s.files.next + 1, ?_, nofun, Nat.le_succ _⟩,
            fun req' h => by simpa [hopened] using h.2.2.2⟩
          unfold cmdRecordScoreData ScoreFiles.create
          simp [hreq, hraw, hcheck, hopened]
        | true =>
          obtain ⟨e, hentry, hscore, hdata⟩ := containsScoreWithNoData_none.mp hcheck
          refine Or.inr ⟨req, rawData, ⟨hreq, hraw, ⟨e, hentry, hscore, hdata⟩, ?_⟩,
            hreq, by simp [hraw], hcheck, hopened⟩
          obtain ⟨t, i, ht, hi, -⟩ := entry_eq_some.mp hentry
          have hne : s.files.next ≠ 0 := by omega
          unfold cmdRecordScoreData ScoreFiles.create
          simp [hreq, hraw, hcheck, hopened, hne, setGameData_eq ht hi]

/-- The row of the slot gets the id. -/
def setRowData (slot : String × ℕ × ℤ × ℤ) (dataId : ℕ) (r : ScoreRow) : ScoreRow :=
  if r.slot = slot then { r with dataId := some dataId } else r

theorem setRowData_slot (slot : String × ℕ × ℤ × ℤ) (dataId : ℕ) (r : ScoreRow) :
    (setRowData slot dataId r).slot = r.slot := by
  unfold setRowData
  split <;> rfl

/-- There is one row of the slot, and it has the score. -/
theorem setScoreDataId_score {s : ScoreState} (h : ScoreInv s) {row : ScoreRow} (hrow : row ∈ s.db.score)
    (hslot : row.slot = (comId, boardId, u, c)) (dataId : ℕ) :
    (setScoreDataId s.db comId boardId u c row.score dataId true).1.score =
      s.db.score.map (setRowData (comId, boardId, u, c) dataId) := by
  have hany : s.db.score.any (fun r => decide (r.slot = (comId, boardId, u, c) ∧
      r.score = row.score)) = true := by
    rw [List.any_eq_true]
    exact ⟨row, hrow, by simp [hslot]⟩
  unfold setScoreDataId
  simp only [Bool.not_true, Bool.false_eq_true, if_false, hany, if_true]
  refine List.map_congr_left fun r hr => ?_
  unfold setRowData
  by_cases hr' : r.slot = (comId, boardId, u, c)
  · obtain rfl := h.row_unique hr hrow (hr'.trans hslot.symm)
    simp [hr']
  · simp [hr']

theorem setRowData_of {slot : String × ℕ × ℤ × ℤ} {dataId : ℕ} {r : ScoreRow} (h : r.slot = slot) :
    setRowData slot dataId r = { r with dataId := some dataId } := if_pos h

theorem setRowData_ne {slot : String × ℕ × ℤ × ℤ} {dataId : ℕ} {r : ScoreRow} (h : r.slot ≠ slot) :
    setRowData slot dataId r = r := if_neg h

/-- The rows after the write: that of the slot with its id, and those of other slots. -/
theorem mem_setRowData {rows : List ScoreRow} {slot : String × ℕ × ℤ × ℤ} {dataId : ℕ}
    {r : ScoreRow} : r ∈ rows.map (setRowData slot dataId) ↔
      (∃ r0 ∈ rows, r0.slot = slot ∧ r = { r0 with dataId := some dataId }) ∨
        (r ∈ rows ∧ r.slot ≠ slot) := by
  rw [List.mem_map]
  constructor
  · rintro ⟨r0, hr0, rfl⟩
    by_cases hs : r0.slot = slot
    · exact Or.inl ⟨r0, hr0, hs, setRowData_of hs⟩
    · rw [setRowData_ne hs]
      exact Or.inr ⟨hr0, hs⟩
  · rintro (⟨r0, hr0, hs, rfl⟩ | ⟨hr, hs⟩)
    · exact ⟨r0, hr0, setRowData_of hs⟩
    · exact ⟨r, hr, setRowData_ne hs⟩

/-- The write keeps rows and tables in order. -/
theorem ScoreInv.setData {s : ScoreState} (h : ScoreInv s)
    (ht : s.cache.table comId boardId = some t) {slot : String × ℕ × ℤ × ℤ} {dataId : ℕ}
    {db : ScoreDb} (hrows : db.score = s.db.score.map (setRowData slot dataId)) (i : ℕ) :
    ScoreInv ⟨db, s.cache.store comId boardId { t with
      sorted := t.sorted.modify i fun e => { e with dataId := some dataId } }⟩ := by
  refine ⟨?_, fun comId' boardId' t' ht' => ?_⟩
  · have hslots : (s.db.score.map (setRowData slot dataId)).map ScoreRow.slot =
        s.db.score.map ScoreRow.slot := by
      rw [List.map_map]
      exact List.map_congr_left fun r _ => setRowData_slot _ _ r
    simp only [hrows, hslots]
    exact h.slots
  · simp only [table_store] at ht'
    split at ht'
    · obtain rfl := Option.some.inj ht'
      exact (h.lookup _ _ t ht).setData i dataId
    · exact h.lookup comId' boardId' t' ht'

theorem cached_store (m : ScoreCache) (t : ScoreTableCache) :
    cached (m.store comId boardId t) comId' boardId' =
      if (comId', boardId') = (comId, boardId) then t.sorted else cached m comId' boardId' := by
  unfold cached
  rw [table_store]
  split <;> rfl

/-- After the write an entry of the table is that of the slot with its data, or one of another slot
that was there. -/
theorem mem_setData (h : LookupOk t) (hfind : t.lookup.find u c = some i)
    (hget : t.sorted[i]? = some e) {dataId : ℕ}
    (hx : x ∈ t.sorted.modify i fun e => { e with dataId := some dataId }) :
    x = { e with dataId := some dataId } ∨ (x ∈ t.sorted ∧ x.slot ≠ (u, c)) := by
  obtain ⟨j, hj⟩ := List.mem_iff_getElem?.mp hx
  rw [List.getElem?_modify] at hj
  by_cases hij : i = j
  · subst hij
    rw [hget] at hj
    refine Or.inl ?_
    simpa using hj.symm
  · cases hold : t.sorted[j]? with
    | none => simp [hold] at hj
    | some o =>
      rw [hold] at hj
      obtain rfl : o = x := by simpa [hij] using hj
      refine Or.inr ⟨List.mem_of_getElem? hold, fun heq => hij ?_⟩
      have hfound := h.found j o hold
      obtain ⟨rfl, rfl⟩ := Prod.mk.inj heq
      exact Option.some.inj (hfind.symm.trans hfound)

/-- A row with a blob is the one that was given the new blob, or has kept an older one. -/
theorem ScoreDataInv.dataId_cases (h : ScoreDataInv s uploads) {slot : String × ℕ × ℤ × ℤ} {r : ScoreRow}
    (hr : r ∈ s.scores.db.score.map (setRowData slot s.files.next)) {id : ℕ} (hid : r.dataId = some id) :
    (r.slot = slot ∧ id = s.files.next) ∨
      (r.slot ≠ slot ∧ r ∈ s.scores.db.score ∧ id < s.files.next) := by
  rcases mem_setRowData.mp hr with ⟨r0, -, hs, rfl⟩ | ⟨hold, hs⟩
  · exact Or.inl ⟨hs, (Option.some.inj hid).symm⟩
  · obtain ⟨blob, hfile, -⟩ := h.named r hold id hid
    exact Or.inr ⟨hs, hold, h.below id blob hfile⟩

/-- **An accepted blob** belongs to the score that row and entry hold. -/
theorem ScoreDataInv.accepts (h : ScoreDataInv s uploads) {cmd : RecordScoreData}
    {req : RecordScoreGameDataRequest} {rawData : List UInt8} (hacc : AcceptsData s cmd req rawData)
    (hexec : cmd.exec = true) : ScoreDataInv (cmdRecordScoreData s cmd).1
      (uploads.set (cmd.comId, req.boardId, cmd.userId, req.pcId) rawData) := by
  obtain ⟨e, hentry, hscore, hdata⟩ := hacc.slot
  obtain ⟨t, i, ht, hfind, hget, hslot, hmem⟩ := h.scores.entry hentry
  obtain ⟨row, hrow, hrowSlot, hrowScore, hrowData⟩ := h.entries _ _ e hmem
  obtain ⟨hu, hc⟩ := Prod.mk.inj hslot
  rw [hu, hc] at hrowSlot
  have hrows := setScoreDataId_score h.scores hrow hrowSlot s.files.next
  rw [hrowScore, hscore, ← hexec] at hrows
  rw [hacc.result, setGameData_eq ht hfind]
  refine ⟨h.scores.setData ht hrows i, ?_, ?_, ?_, ?_, Nat.succ_pos _⟩
  · intro comId boardId x hx
    simp only [cached_store] at hx
    simp only [hrows, mem_setRowData]
    by_cases hboard : (comId, boardId) = (cmd.comId, req.boardId)
    · obtain ⟨rfl, rfl⟩ := Prod.mk.inj hboard
      rw [if_pos rfl] at hx
      rcases mem_setData (h.scores.lookup _ _ t ht) hfind hget hx with rfl | ⟨hold, hne⟩
      · exact ⟨_, Or.inl ⟨row, hrow, hrowSlot, rfl⟩, by simp only [hu, hc]; exact hrowSlot,
          hrowScore, rfl⟩
      · obtain ⟨r, hr, hrslot, hrest⟩ :=
          h.entries cmd.comId req.boardId x (by rwa [cached_of_table ht])
        refine ⟨r, Or.inr ⟨hr, fun heq => hne ?_⟩, hrslot, hrest⟩
        rw [hrslot] at heq
        exact (Prod.mk.inj (Prod.mk.inj heq).2).2
    · rw [if_neg hboard] at hx
      obtain ⟨r, hr, hrslot, hrest⟩ := h.entries comId boardId x hx
      refine ⟨r, Or.inr ⟨hr, fun heq => hboard ?_⟩, hrslot, hrest⟩
      rw [hrslot] at heq
      obtain ⟨hcom, hboth⟩ := Prod.mk.inj heq
      exact Prod.ext hcom (Prod.mk.inj hboth).1
  · intro r hr id hid
    simp only [hrows] at hr
    rcases h.dataId_cases hr hid with ⟨hs, rfl⟩ | ⟨hs, hold, hlt⟩
    · refine ⟨rawData, ?_, ?_⟩
      · exact (Table.get?_set).trans (if_pos rfl)
      · rw [hs]
        exact (Table.get?_set).trans (if_pos rfl)
    · obtain ⟨blob, hfile, hup⟩ := h.named r hold id hid
      exact ⟨blob, (Table.get?_set_ne hlt.ne).trans hfile, (Table.get?_set_ne hs).trans hup⟩
  · intro r hr r' hr' id hid hid'
    simp only [hrows] at hr hr'
    rcases h.dataId_cases hr hid with ⟨hs, rfl⟩ | ⟨-, hold, hlt⟩ <;>
      rcases h.dataId_cases hr' hid' with ⟨hs', heq⟩ | ⟨-, hold', hlt'⟩
    · exact hs.trans hs'.symm
    · omega
    · omega
    · exact h.apart r hold r' hold' id hid hid'
  · intro id blob hfile
    have hfile' : (s.files.files.set s.files.next rawData).get? id = some blob := hfile
    rcases Table.of_get?_set hfile' with ⟨rfl, -⟩ | ⟨-, hold⟩
    · exact Nat.lt_succ_self _
    · have hlt := h.below id blob hold
      simp only
      omega

/-- Recording data keeps the invariant. -/
theorem ScoreDataInv.recordScoreData (h : ScoreDataInv s uploads) {cmd : RecordScoreData}
    (hexec : cmd.exec = true) : ScoreDataInv (s.step (.recordScoreData cmd)).1
      (uploads.step (s.step (.recordScoreData cmd)).2 (.recordScoreData cmd)) := by
  unfold ScoreSystem.step Uploads.step
  simp only [Option.some.injEq]
  rcases cmdRecordScoreData_cases h.pos cmd with
    ⟨⟨e, next, heq, he, hle⟩, -⟩ | ⟨req, rawData, hacc, -⟩
  · have hsame : ScoreDataInv { s with files := { s.files with next } } uploads := by
      refine ⟨h.scores, h.entries, h.named, h.apart, fun id blob hfile => ?_, ?_⟩
      · have hlt := h.below id blob hfile
        simp only
        omega
      · have hpos := h.pos
        simp only
        omega
    rw [heq]
    simp only [he, if_false]
    split <;> exact hsame
  · have hnoError : (cmdRecordScoreData s cmd).2 = .noError := by rw [hacc.result]
    simp only [hacc.request, hacc.data, hnoError, if_true]
    exact h.accepts hacc hexec

/-! ## Starts -/

theorem foldl_loadTable {entries : String × ℕ → List ScoreEntry} {now : ℕ}
    {boards : List ((String × ℕ) × ScoreBoardConfig)} {m : ScoreCache}
    (ht : (boards.foldl (fun m e => loadTable m e.1.1 e.1.2 e.2 (entries e.1) now) m).table comId
      boardId = some t) :
    (∃ cfg, ((comId, boardId), cfg) ∈ boards ∧ t = ⟨entries (comId, boardId),
      reindexFrom (entries (comId, boardId)) 0 ∅, cfg, now⟩) ∨ m.table comId boardId = some t := by
  induction boards generalizing m with
  | nil => exact Or.inr ht
  | cons b boards ih =>
    rw [List.foldl_cons] at ht
    rcases ih ht with ⟨cfg, hmem, heq⟩ | hold
    · exact Or.inl ⟨cfg, List.mem_cons_of_mem _ hmem, heq⟩
    · unfold loadTable at hold
      rw [table_store] at hold
      by_cases hb : (comId, boardId) = (b.1.1, b.1.2)
      · rw [if_pos hb] at hold
        obtain ⟨⟨c0, b0⟩, cfg⟩ := b
        obtain ⟨rfl, rfl⟩ := Prod.mk.inj hb
        exact Or.inl ⟨cfg, List.mem_cons_self, (Option.some.inj hold).symm⟩
      · rw [if_neg hb] at hold
        exact Or.inr hold

theorem scoresForBoard_mem {db : ScoreDb} {username : ℤ → String} {cfg : ScoreBoardConfig}
    {entries : List ScoreEntry} (h : ScoresForBoard db username comId boardId cfg entries)
    (he : e ∈ entries) : ∃ r ∈ db.rows comId boardId, e = r.toEntry username := by
  obtain ⟨rows, hperm, -, rfl⟩ := h
  obtain ⟨r, hr, rfl⟩ := List.mem_map.mp he
  exact ⟨r, hperm.mem_iff.mp (List.mem_of_mem_take hr), rfl⟩

theorem scoresForBoard_nodup {db : ScoreDb} {username : ℤ → String} {cfg : ScoreBoardConfig}
    {entries : List ScoreEntry} (hnd : (db.score.map ScoreRow.slot).Nodup)
    (h : ScoresForBoard db username comId boardId cfg entries) :
    (entries.map ScoreEntry.slot).Nodup := by
  obtain ⟨rows, hperm, -, rfl⟩ := h
  have hrows : (rows.map ScoreRow.slot).Nodup :=
    (hperm.map _).nodup_iff.mpr (hnd.sublist (List.filter_sublist.map _))
  have htake : ((rows.take cfg.rankLimit).map ScoreRow.slot).Nodup :=
    hrows.sublist ((List.take_sublist _ _).map _)
  rw [List.map_map, List.nodup_map_iff_inj_on (List.Nodup.of_map _ htake)]
  intro r hr r' hr' heq
  -- the rows are of one board
  obtain ⟨-, hcom, hboard⟩ := mem_rows.mp (hperm.mem_iff.mp (List.mem_of_mem_take hr))
  obtain ⟨-, hcom', hboard'⟩ := mem_rows.mp (hperm.mem_iff.mp (List.mem_of_mem_take hr'))
  obtain ⟨huser, hchar⟩ := Prod.mk.inj heq
  refine List.inj_on_of_nodup_map htake hr hr' ?_
  simp only [ScoreRow.toEntry] at huser hchar
  simp only [ScoreRow.slot, hcom, hcom', hboard, hboard', huser, hchar]

/-- The start reads what the database holds. -/
def ScoreStart.Reads (start : ScoreStart) (s : ScoreSystem) : Prop :=
  ∃ username, ∀ k cfg, (loadScoreboardsCfg s.scores.db start.config).boards.get? k = some cfg →
    ScoresForBoard s.scores.db username k.1 k.2 cfg (start.entries k)

theorem le_foldl_max (l : List ℕ) (m : ℕ) : m ≤ l.foldl max m ∧ ∀ a ∈ l, a ≤ l.foldl max m := by
  induction l generalizing m with
  | nil => exact ⟨le_rfl, fun a ha => nomatch ha⟩
  | cons b l ih =>
    obtain ⟨hle, hall⟩ := ih (max m b)
    rw [List.foldl_cons]
    refine ⟨by omega, fun a ha => ?_⟩
    rcases List.mem_cons.mp ha with rfl | ha
    · omega
    · exact hall a ha

/-- **A start** deletes no file that is named, and issues no id that is taken. -/
theorem ScoreDataInv.restart (h : ScoreDataInv s uploads) {start : ScoreStart}
    (hreads : start.Reads s) : ScoreDataInv (initScoreSystem s start) uploads := by
  obtain ⟨username, hreads⟩ := hreads
  have hload : ∀ comId boardId t, (initScoreSystem s start).scores.cache.table comId boardId = some t →
      ∃ cfg, ScoresForBoard s.scores.db username comId boardId cfg (start.entries (comId, boardId)) ∧
        t = ⟨start.entries (comId, boardId), reindexFrom (start.entries (comId, boardId)) 0 ∅, cfg,
          start.now⟩ := by
    intro comId boardId t ht
    rcases foldl_loadTable ht with ⟨cfg, hmem, rfl⟩ | hempty
    · exact ⟨cfg, hreads _ cfg (Table.mem_inOrder.mp hmem), rfl⟩
    · cases hempty
  have hfiles : ∀ id, (initScoreSystem s start).files.read id =
      (s.files.read id).bind fun data => if id ∈ s.scores.db.allDataIds then some data else none :=
    fun id => Table.get?_filterMap _
  refine ⟨⟨h.scores.slots, ?_⟩, ?_, ?_, h.apart, ?_, Nat.succ_pos _⟩
  · intro comId boardId t ht
    obtain ⟨cfg, hread, rfl⟩ := hload comId boardId t ht
    exact loaded_lookupOk (scoresForBoard_nodup h.scores.slots hread) cfg start.now
  · intro comId boardId x hx
    unfold cached at hx
    cases ht : (initScoreSystem s start).scores.cache.table comId boardId with
    | none => simp [ht] at hx
    | some t =>
      obtain ⟨cfg, hread, rfl⟩ := hload comId boardId t ht
      rw [ht] at hx
      obtain ⟨r, hr, rfl⟩ := scoresForBoard_mem hread hx
      obtain ⟨hmem, hcom, hboard⟩ := mem_rows.mp hr
      exact ⟨r, hmem, by simp [ScoreRow.slot, ScoreRow.toEntry, hcom, hboard], rfl, rfl⟩
  · intro r hr id hid
    obtain ⟨blob, hfile, hup⟩ := h.named r hr id hid
    have hvalid : id ∈ s.scores.db.allDataIds := List.mem_filterMap.mpr ⟨r, hr, hid⟩
    exact ⟨blob, by rw [hfiles, hfile, Option.bind_some, if_pos hvalid], hup⟩
  · intro id blob hfile
    rw [hfiles] at hfile
    obtain ⟨data, hold, -⟩ := Option.bind_eq_some_iff.mp hfile
    have hkey : id ∈ s.files.files.keys := Table.mem_keys_iff.mpr ⟨data, hold⟩
    have hmax := (le_foldl_max s.files.files.keys 0).2 id hkey
    unfold initScoreSystem ScoreFiles.init ScoreFiles.cleanOrphans
    simp only
    omega

/-! ## Runs -/

/-- The database does what it is told: the `UPDATE` of the data id runs, and a start reads each board
as the query asks. -/
def ScoreEvent.Works (s : ScoreSystem) : ScoreEvent → Prop
  | .recordScore _ _ => True
  | .recordScoreData c => c.exec = true
  | .restart start => start.Reads s

/-- **What is kept of blobs.** -/
structure ScoreDataOk (s : ScoreSystem) (uploads : Uploads) : Prop where
  /-- a slot has one row -/
  rows : (s.scores.db.score.map ScoreRow.slot).Nodup
  named : ∀ r ∈ s.scores.db.score, ∀ id, r.dataId = some id →
    ∃ blob, s.files.read id = some blob ∧ uploads.get? r.slot = some blob
  apart : s.scores.db.allDataIds.Nodup
  /-- `create` overwrites nothing -/
  fresh : s.files.read s.files.next = none
  cached : ∀ comId boardId userId charId e,
    s.scores.cache.entry comId boardId userId charId = some e →
      ∃ r ∈ s.scores.db.score, r.slot = (comId, boardId, userId, charId) ∧ r.dataId = e.dataId
  served : ∀ userIdForNpid comId req blob,
    (cmdGetScoreData userIdForNpid s comId (some req)).2 = some blob →
      ∃ userId, userIdForNpid req.npid = some userId ∧
        uploads.get? (comId, req.boardId, userId, req.pcId) = some blob
  servedByAccId : ∀ comId req blob, (cmdGetScoreGameDataByAccId s comId (some req)).2 = some blob →
    uploads.get? (comId, req.boardId, req.accountId, req.pcId) = some blob

/-- A blob that is read is the last one uploaded for the slot. -/
theorem ScoreDataInv.readGameData (h : ScoreDataInv s uploads) {blob : List UInt8}
    (hread : (readGameData s comId boardId u c).2 = some blob) :
    uploads.get? (comId, boardId, u, c) = some blob := by
  unfold ShadNet.readGameData getGameDataId at hread
  cases he : s.scores.cache.entry comId boardId u c with
  | none => simp [he] at hread
  | some e =>
    obtain ⟨-, -, -, -, -, hslot, hmem⟩ := h.scores.entry he
    obtain ⟨r, hr, hrslot, -, hdata⟩ := h.entries comId boardId e hmem
    obtain ⟨rfl, rfl⟩ := Prod.mk.inj hslot
    cases hid : e.dataId with
    | none => simp [he, hid] at hread
    | some id =>
      obtain ⟨blob', hfile, hup⟩ := h.named r hr id (hdata.trans hid)
      rw [hrslot] at hup
      simp only [he, Option.bind_some, hid, hfile] at hread
      rw [hup]
      exact hread

theorem ScoreDataInv.ok (h : ScoreDataInv s uploads) : ScoreDataOk s uploads where
  rows := h.scores.slots
  named := h.named
  apart := by
    unfold ScoreDb.allDataIds
    have hslots : s.scores.db.score.Pairwise fun r r' => r.slot ≠ r'.slot :=
      List.pairwise_map.mp h.scores.slots
    refine List.pairwise_filterMap.mpr (hslots.imp_of_mem fun hr hr' hne => ?_)
    rintro id hid id' hid' rfl
    exact hne (h.apart _ hr _ hr' id hid hid')
  fresh := by
    by_contra hne
    obtain ⟨blob, hfile⟩ := Option.ne_none_iff_exists'.mp hne
    exact absurd (h.below _ blob hfile) (lt_irrefl _)
  cached := by
    intro comId boardId u c e he
    obtain ⟨-, -, -, -, -, hslot, hmem⟩ := h.scores.entry he
    obtain ⟨r, hr, hrslot, -, hdata⟩ := h.entries comId boardId e hmem
    obtain ⟨rfl, rfl⟩ := Prod.mk.inj hslot
    exact ⟨r, hr, hrslot, hdata⟩
  served := by
    intro userIdForNpid comId req blob hread
    unfold cmdGetScoreData at hread
    simp only at hread
    split at hread
    · cases hread
    · split at hread
      · cases hread
      · rename_i userId huser
        exact ⟨userId, huser, h.readGameData hread⟩
  servedByAccId := by
    intro comId req blob hread
    unfold cmdGetScoreGameDataByAccId at hread
    simp only at hread
    split at hread
    · cases hread
    · exact h.readGameData hread

/-- Every event whose operations succeed keeps the invariant. -/
theorem ScoreDataInv.step (h : ScoreDataInv s uploads) {e : ScoreEvent} (hworks : e.Works s) :
    ScoreDataInv (s.step e).1 (uploads.step (s.step e).2 e) := by
  cases e with
  | recordScore c lookup => exact h.recordScore c lookup
  | recordScoreData c => exact h.recordScoreData hworks
  | restart start => exact h.restart hworks

/-- The tracked system is the system. -/
theorem trackedScoresAfter_system (events : List ScoreEvent) (n : ℕ) :
    (trackedScoresAfter events n).system = scoreSystemAfter events n := by
  have hstep : ∀ (w : TrackedScores) (e : ScoreEvent),
      (w.system.step e).1 = (w.step e).system := fun _ _ => rfl
  unfold trackedScoresAfter scoreSystemAfter runAt
  exact (List.foldl_hom TrackedScores.system hstep).symm

/-- What was uploaded for the score that each slot has after `n` events. -/
def uploadsAfter (events : List ScoreEvent) (n : ℕ) : Uploads := (trackedScoresAfter events n).uploads

/-- **Blobs belong to their scores.** Along every run of `RecordScore`, `RecordScoreData` and
restarts on a working database each row that names a file names one that holds the blob uploaded for
the row's score, no two rows name the same file, a new file overwrites none, the cache names for a slot
what its row names, and what is served for a slot is the blob uploaded for its score. -/
theorem score_data_ok (events : List ScoreEvent)
    (hworks : ∀ n (hn : n < events.length), events[n].Works (scoreSystemAfter events n)) (n : ℕ) :
    ScoreDataOk (scoreSystemAfter events n) (uploadsAfter events n) := by
  rw [← trackedScoresAfter_system]
  simp only [← trackedScoresAfter_system] at hworks
  refine ScoreDataInv.ok ?_
  refine runAt_guard (P := fun w : TrackedScores => ScoreDataInv w.system w.uploads)
    (G := fun w e => e.Works w.system) ?_ ?_ hworks n
  · -- nothing is stored yet
    exact ⟨⟨List.nodup_nil, fun _ _ _ h => (nomatch h)⟩, fun _ _ _ h => (nomatch h),
      fun _ h => (nomatch h), fun _ h => (nomatch h), fun _ _ h => (nomatch h), Nat.one_pos⟩
  · intro w e h he
    exact h.step he

/-- A user scores 10 with a blob, and the server starts again. -/
def blobKept : List ScoreEvent :=
  [.recordScore (scoreOf 1 10 1) .runs,
    .recordScoreData ⟨1, "NPWR00001_00", some ⟨0, 0, 10⟩, some [7], true, true⟩,
    .restart ⟨[], fun _ => [⟨1, 0, 10, "", [], some 1, 1, "user"⟩], .listed, 2⟩]

theorem blobKept_served :
    (readGameData (scoreSystemAfter blobKept 3) "NPWR00001_00" 0 1 0).2 = some [7] ∧
      (uploadsAfter blobKept 3).get? ("NPWR00001_00", 0, 1, 0) = some [7] := by
  have hread : (readGameData (scoreSystemAfter blobKept 3) "NPWR00001_00" 0 1 0).2 = some [7] := by
    decide +kernel
  have hworks : ∀ n (hn : n < blobKept.length),
      blobKept[n].Works (scoreSystemAfter blobKept n) := by
    intro n hn
    match n, hn with
    | 0, _ => trivial
    | 1, _ => rfl
    | 2, _ =>
      have hdb : (scoreSystemAfter blobKept 2).scores.db =
          ⟨(∅ : Table (String × ℕ) ScoreBoardConfig).set ("NPWR00001_00", 0) {},
            [⟨"NPWR00001_00", 0, 1, 0, 10, "", [], some 1, 1⟩]⟩ := by rfl
      refine ⟨fun _ => "user", fun k cfg hk => ?_⟩
      simp only [hdb] at hk ⊢
      obtain ⟨rfl, rfl⟩ | ⟨-, hnone⟩ := Table.of_get?_set hk
      · exact ⟨_, .refl _, List.pairwise_singleton _ _, rfl⟩
      · cases hnone
  have hok := score_data_ok blobKept hworks 3
  exact ⟨hread, hok.servedByAccId "NPWR00001_00" ⟨1, 0, 0⟩ [7] hread⟩

end ShadNet
