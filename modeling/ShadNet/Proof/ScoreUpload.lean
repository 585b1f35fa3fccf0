import ShadNet.Proof.ScoreData

/-!
# Uploads of score data, all or nothing

* `RefersTo`: row, cached entry and file of a slot all have the new blob.
* `mem_setScoreDataId`: what the `UPDATE` leaves of the rows, however it fares.
* `upload_ok_iff`: a reply without an error means that, and any other that nothing changed, exactly if
  the `UPDATE` finds the row of every upload that gets as far.
-/

namespace ShadNet

open Lib

variable {s : ScoreSystem} {c : RecordScoreData} {req : RecordScoreGameDataRequest}

/-- The slot that an upload is for. -/
def RecordScoreData.slot (c : RecordScoreData) (req : RecordScoreGameDataRequest) :
    String × ℕ × ℤ × ℤ := (c.comId, req.boardId, c.userId, req.pcId)

/-- The slot has a row, which names the file `id`; so does its cached entry, and `id` is the blob. -/
structure RefersTo (s : ScoreSystem) (comId : String) (boardId : ℕ) (userId charId : ℤ) (id : ℕ)
    (blob : List UInt8) : Prop where
  stored : ∃ r ∈ s.scores.db.score, r.slot = (comId, boardId, userId, charId)
  row : ∀ r ∈ s.scores.db.score, r.slot = (comId, boardId, userId, charId) → r.dataId = some id
  entry : getGameDataId s.scores.cache comId boardId userId charId = some id
  file : s.files.read id = some blob

/-- **All or nothing.** -/
structure AllOrNothing (s : ScoreSystem) (c : RecordScoreData) : Prop where
  all : (cmdRecordScoreData s c).2 = .noError → ∃ req rawData, c.req = some req ∧
    c.rawData = some rawData ∧ RefersTo (cmdRecordScoreData s c).1 c.comId req.boardId c.userId
      req.pcId s.files.next rawData
  nothing : (cmdRecordScoreData s c).2 ≠ .noError →
    (cmdRecordScoreData s c).1.scores = s.scores ∧
      (cmdRecordScoreData s c).1.files.files = s.files.files

/-- The `UPDATE` finds the row of the slot, and it works; a row that names the file already needs
none. -/
def RecordScoreData.Updates (s : ScoreSystem) (c : RecordScoreData)
    (req : RecordScoreGameDataRequest) : Prop :=
  (∃ r ∈ s.scores.db.score, r.slot = c.slot req) ∧
    ∀ r ∈ s.scores.db.score, r.slot = c.slot req →
      (c.exec = true ∧ r.score = req.score) ∨ r.dataId = some s.files.next

/-- **What the `UPDATE` leaves**: rows that it finds get the id, the others stay. -/
theorem mem_setScoreDataId {db : ScoreDb} {comId : String} {boardId dataId : ℕ} {u ch score : ℤ}
    {exec : Bool} {r' : ScoreRow} :
    r' ∈ (setScoreDataId db comId boardId u ch score dataId exec).1.score ↔
      ∃ r ∈ db.score, r' = if exec = true ∧ r.slot = (comId, boardId, u, ch) ∧ r.score = score
        then { r with dataId := some dataId } else r := by
  unfold setScoreDataId
  cases exec with
  | false => simp
  | true =>
    simp only [Bool.not_true, Bool.false_eq_true, if_false, true_and]
    split
    · simp only [decide_eq_true_eq, List.mem_map]
      constructor
      · rintro ⟨r, hr, rfl⟩
        exact ⟨r, hr, rfl⟩
      · rintro ⟨r, hr, rfl⟩
        exact ⟨r, hr, rfl⟩
    · -- no row is found
      rename_i hnone
      have hnot : ∀ r ∈ db.score, ¬ (r.slot = (comId, boardId, u, ch) ∧ r.score = score) := by
        simpa using hnone
      constructor
      · intro hr
        exact ⟨r', hr, (if_neg (hnot r' hr)).symm⟩
      · rintro ⟨r, hr, rfl⟩
        rwa [if_neg (hnot r hr)]

/-- The cached entry of an accepted upload names the file. -/
theorem getGameDataId_setGameData {m : ScoreCache} {comId : String} {boardId : ℕ} {u ch : ℤ}
    {e : ScoreEntry} (he : m.entry comId boardId u ch = some e) (dataId : ℕ) :
    getGameDataId (setGameData m comId boardId u ch dataId).1 comId boardId u ch = some dataId := by
  obtain ⟨t, i, ht, hi, he⟩ := entry_eq_some.mp he
  rw [setGameData_eq ht hi]
  unfold getGameDataId ScoreCache.entry
  have htable : (m.store comId boardId { t with
      sorted := t.sorted.modify i fun e => { e with dataId := some dataId } }).table comId boardId =
      some { t with sorted := t.sorted.modify i fun e => { e with dataId := some dataId } } := by
    rw [table_store, if_pos rfl]
  simp [htable, hi, he]

/-- An accepted upload refers to its blob exactly if the `UPDATE` found the row. -/
theorem AcceptsData.refersTo_iff {rawData : List UInt8} (h : AcceptsData s c req rawData) :
    RefersTo (cmdRecordScoreData s c).1 c.comId req.boardId c.userId req.pcId s.files.next rawData ↔
      c.Updates s req := by
  obtain ⟨e, he, -, -⟩ := h.slot
  have hentry := getGameDataId_setGameData he s.files.next
  have hslot : ∀ r : ScoreRow, (if c.exec = true ∧ r.slot = (c.comId, req.boardId, c.userId,
      req.pcId) ∧ r.score = req.score then { r with dataId := some s.files.next } else r).slot =
      r.slot := fun r => by split <;> rfl
  rw [h.result]
  constructor
  · intro href
    refine ⟨?_, fun r hr hrslot => ?_⟩
    · obtain ⟨r', hr', hslot'⟩ := href.stored
      obtain ⟨r, hr, rfl⟩ := mem_setScoreDataId.mp hr'
      exact ⟨r, hr, (hslot r).symm.trans hslot'⟩
    · have hrow := href.row _ (mem_setScoreDataId.mpr ⟨r, hr, rfl⟩) ((hslot r).trans hrslot)
      split at hrow
      · rename_i hfound
        exact Or.inl ⟨hfound.1, hfound.2.2⟩
      · exact Or.inr hrow
  · rintro ⟨⟨r, hr, hrslot⟩, hrows⟩
    refine ⟨?_, ?_, hentry, Table.get?_set.trans (if_pos rfl)⟩
    · exact ⟨_, mem_setScoreDataId.mpr ⟨r, hr, rfl⟩, (hslot r).trans hrslot⟩
    · intro r' hr' hslot'
      obtain ⟨r, hr, rfl⟩ := mem_setScoreDataId.mp hr'
      have hrslot := (hslot r).symm.trans hslot'
      split
      · rfl
      · rename_i hmissed
        rcases hrows r hr hrslot with ⟨hexec, hscore⟩ | hdata
        · exact absurd ⟨hexec, hrslot, hscore⟩ hmissed
        · exact hdata

/-- **Uploads are all or nothing** exactly if the `UPDATE` of each that gets as far finds the row of its
slot, and works. -/
theorem upload_ok_iff (s : ScoreSystem) (hpos : 0 < s.files.next) (c : RecordScoreData) :
    AllOrNothing s c ↔ ∀ req, c.Reaches s req → c.Updates s req := by
  rcases cmdRecordScoreData_cases hpos c with
    ⟨⟨e, next, heq, he, -⟩, hnot⟩ | ⟨req, rawData, hacc, hreach⟩
  · have hok : AllOrNothing s c := by
      refine ⟨fun hno => ?_, fun _ => ?_⟩
      · rw [heq] at hno
        exact absurd hno he
      · rw [heq]
        exact ⟨rfl, rfl⟩
    exact ⟨fun _ req hreach => absurd hreach (hnot req), fun _ => hok⟩
  · have hnoError : (cmdRecordScoreData s c).2 = .noError := by rw [hacc.result]
    constructor
    · intro hok req' hreach'
      obtain ⟨req0, rawData0, hreq0, hraw0, href⟩ := hok.all hnoError
      obtain rfl := Option.some.inj (hacc.request.symm.trans hreq0)
      obtain rfl := Option.some.inj (hacc.request.symm.trans hreach'.1)
      obtain rfl := Option.some.inj (hacc.data.symm.trans hraw0)
      exact hacc.refersTo_iff.mp href
    · intro hupdates
      refine ⟨fun _ => ⟨req, rawData, hacc.request, hacc.data, ?_⟩, fun herr => absurd hnoError herr⟩
      exact hacc.refersTo_iff.mpr (hupdates req hreach)

/-- A board on which a user has a score of 10 without data. -/
def scoreWithoutData : ScoreSystem := scoreSystemAfter [.recordScore (scoreOf 1 10 1) .runs] 1

/-- With a working database the row gets the blob. -/
theorem working_upload_refers :
    AllOrNothing scoreWithoutData ⟨1, "NPWR00001_00", some ⟨0, 0, 10⟩, some [7], true, true⟩ := by
  have hdb : scoreWithoutData.scores.db.score =
      [⟨"NPWR00001_00", 0, 1, 0, 10, "", [], none, 1⟩] := by rfl
  refine (upload_ok_iff _ (by decide) _).mpr fun req hreach => ?_
  obtain rfl := Option.some.inj hreach.1
  unfold RecordScoreData.Updates
  rw [hdb]
  refine ⟨⟨_, List.mem_singleton_self _, rfl⟩, fun r hr _ => Or.inl ⟨rfl, ?_⟩⟩
  obtain rfl := List.mem_singleton.mp hr
  rfl

/-- The `UPDATE` fails: the reply has no error, yet the row has no blob. -/
theorem failed_update_unseen :
    ¬ AllOrNothing scoreWithoutData ⟨1, "NPWR00001_00", some ⟨0, 0, 10⟩, some [7], true, false⟩ := by
  intro hok
  obtain ⟨req, rawData, hreq, -, href⟩ := hok.all (by decide +kernel)
  obtain rfl := Option.some.inj hreq
  have hdb : (cmdRecordScoreData scoreWithoutData
      ⟨1, "NPWR00001_00", some ⟨0, 0, 10⟩, some [7], true, false⟩).1.scores.db.score =
      [⟨"NPWR00001_00", 0, 1, 0, 10, "", [], none, 1⟩] := by rfl
  have hrow := href.row
  rw [hdb] at hrow
  have hnone := hrow _ (List.mem_singleton_self _) rfl
  cases hnone

end ShadNet
