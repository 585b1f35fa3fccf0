import Mathlib.Data.List.Induction
import ShadNet.Spec.ScoreData
import ShadNet.Spec.ScoreboardsCfg

/-!
# Lines of scoreboards.cfg

* `setBoards_eq`: what the loop over the table ids of a line has written when it stops.
* `loadScoreboardsCfg_text`: the writes that a start of the score system makes.
* `load_ok_iff`: the valid lines, and they alone, change the boards exactly when every line with a
  table id that does not parse finds the boards of the ids before it as it would set them, and every
  valid line has an upload size that the database keeps.
-/

namespace ShadNet

open Lib

variable {qt : Qt} {ofReal : ℕ → ℕ} {boards boards' : Boards} {comId : String} {cfg : ScoreBoardConfig}
  {line : String} {lines : List String} {key : String × ℕ}

/-! ## Lines that are entirely valid -/

/-- What a valid line asks for. -/
structure BoardUpdate where
  comId : String
  ids : List ℕ
  cfg : ScoreBoardConfig

/-- The table ids, if all of them parse. -/
def lineIds (qt : Qt) (tableStrs : List String) : Option (List ℕ) :=
  tableStrs.mapM fun t => toUInt? (qt.trimmed t)

/-- What a line says, if it is valid. -/
def validLine (qt : Qt) (line : String) : Option BoardUpdate :=
  (lineHead qt line).bind fun l => (lineIds qt l.tableStrs).map fun ids => ⟨l.comId, ids, l.cfg⟩

/-- The boards of a line get its settings. -/
def applyUpdate (boards : Boards) (u : BoardUpdate) : Boards :=
  u.ids.foldl (fun boards id => boards.set (u.comId, id) u.cfg) boards

/-- The boards after the valid ones of the lines. -/
def applyLines (qt : Qt) (boards : Boards) (lines : List String) : Boards :=
  (lines.filterMap (validLine qt)).foldl applyUpdate boards

/-- The boards have the same configurations. -/
def SameBoards (boards boards' : Boards) : Prop := ∀ key, boards.get? key = boards'.get? key

/-! ## The loop over the table ids -/

/-- The ids up to the first that does not parse. -/
def idsBefore (qt : Qt) : List String → List ℕ
  | [] => []
  | t :: tableStrs =>
    match toUInt? (qt.trimmed t) with
    | none => []
    | some tid => tid :: idsBefore qt tableStrs

/-- **What the loop has written.** -/
theorem setBoards_eq (tableStrs : List String) (boards : Boards) :
    (setBoards qt ofReal comId cfg tableStrs boards).1 =
      applyUpdate boards ⟨comId, idsBefore qt tableStrs, cfg.stored ofReal⟩ := by
  induction tableStrs generalizing boards with
  | nil => rfl
  | cons t tableStrs ih =>
    unfold setBoards idsBefore
    cases ht : toUInt? (qt.trimmed t) with
    | none => rfl
    | some tid => exact ih _

theorem setBoards_ok (tableStrs : List String) (boards : Boards) :
    (setBoards qt ofReal comId cfg tableStrs boards).2 = (lineIds qt tableStrs).isSome := by
  unfold lineIds
  induction tableStrs generalizing boards with
  | nil => rfl
  | cons t tableStrs ih =>
    unfold setBoards
    rw [List.mapM_cons]
    cases ht : toUInt? (qt.trimmed t) with
    | none => rfl
    | some tid =>
      simp only
      rw [ih]
      cases List.mapM (fun t => toUInt? (qt.trimmed t)) tableStrs <;> rfl

theorem idsBefore_of_some {tableStrs : List String} {ids : List ℕ} (h : lineIds qt tableStrs = some ids) :
    idsBefore qt tableStrs = ids := by
  unfold lineIds at h
  induction tableStrs generalizing ids with
  | nil => exact Option.some.inj h
  | cons t tableStrs ih =>
    rw [List.mapM_cons] at h
    obtain ⟨tid, ht, h⟩ := Option.bind_eq_some_iff.mp h
    obtain ⟨rest, hrest, h⟩ := Option.bind_eq_some_iff.mp h
    obtain rfl := Option.some.inj h
    rw [idsBefore, ht, ih hrest]

/-- An update sets the boards that it lists, and no other. -/
theorem get?_applyUpdate (u : BoardUpdate) (boards : Boards) : (applyUpdate boards u).get? key =
    if key.1 = u.comId ∧ key.2 ∈ u.ids then some u.cfg else boards.get? key := by
  obtain ⟨comId, ids, cfg⟩ := u
  unfold applyUpdate
  simp only
  induction ids generalizing boards with
  | nil => simp
  | cons id ids ih =>
    rw [List.foldl_cons, ih, Table.get?_set]
    by_cases hrest : key.1 = comId ∧ key.2 ∈ ids
    · rw [if_pos hrest, if_pos ⟨hrest.1, List.mem_cons_of_mem id hrest.2⟩]
    · rw [if_neg hrest]
      by_cases hkey : key = (comId, id)
      · rw [hkey, if_pos rfl, if_pos ⟨rfl, List.mem_cons_self⟩]
      · rw [if_neg hkey, if_neg]
        rintro ⟨hcom, hmem⟩
        rcases List.mem_cons.mp hmem with hid | hmem
        · exact hkey (Prod.ext hcom hid)
        · exact hrest ⟨hcom, hmem⟩

/-! ## One line -/

/-- Equal boards stay so. -/
theorem SameBoards.applyUpdate (h : SameBoards boards boards') (u : BoardUpdate) :
    SameBoards (applyUpdate boards u) (applyUpdate boards' u) := by
  intro key
  rw [get?_applyUpdate, get?_applyUpdate, h key]

theorem validLine_eq_none_iff : validLine qt line = none ↔
    ∀ l, lineHead qt line = some l → lineIds qt l.tableStrs = none := by
  unfold validLine
  rw [Option.bind_eq_none_iff]
  exact forall₂_congr fun l _ => Option.map_eq_none_iff

/-- A line is reported exactly if it is not entirely valid. -/
theorem parseLine_ok (boards : Boards) :
    (parseLine qt ofReal boards line).2 = (validLine qt line).isSome := by
  unfold parseLine validLine
  cases lineHead qt line with
  | none => rfl
  | some l =>
    simp only [Option.bind_some, Option.isSome_map]
    exact setBoards_ok _ _

theorem parseLine_of_head {l : BoardLine} (h : lineHead qt line = some l) (boards : Boards) :
    (parseLine qt ofReal boards line).1 =
      applyUpdate boards ⟨l.comId, idsBefore qt l.tableStrs, l.cfg.stored ofReal⟩ := by
  unfold parseLine
  rw [h]
  exact setBoards_eq _ _

/-- **A valid line** is applied, with its configuration as it is stored. -/
theorem parseLine_valid {u : BoardUpdate} (h : validLine qt line = some u) (boards : Boards) :
    (parseLine qt ofReal boards line).1 = applyUpdate boards { u with cfg := u.cfg.stored ofReal } := by
  obtain ⟨l, hl, hu⟩ := Option.bind_eq_some_iff.mp h
  obtain ⟨ids, hids, rfl⟩ := Option.map_eq_some_iff.mp hu
  rw [parseLine_of_head hl, idsBefore_of_some hids]

theorem lineHead_tables {l : BoardLine} (h : lineHead qt line = some l) : l.tableStrs ≠ [] := by
  have hsplit : ∀ s : String, splitString ',' s ≠ [] := by
    intro s hnil
    exact List.splitOnP_ne_nil _ _ (List.map_eq_nil_iff.mp hnil)
  unfold lineHead at h
  split at h
  · simp only [Option.bind_eq_bind, Option.bind_eq_some_iff, Option.some.injEq] at h
    obtain ⟨_, -, _, -, _, -, _, -, _, -, rfl⟩ := h
    exact hsplit _
  · cases h

/-- A valid line lists some board. -/
theorem validLine_ids {u : BoardUpdate} (h : validLine qt line = some u) : ∃ id, id ∈ u.ids := by
  obtain ⟨l, hl, hu⟩ := Option.bind_eq_some_iff.mp h
  obtain ⟨ids, hids, rfl⟩ := Option.map_eq_some_iff.mp hu
  obtain ⟨t, ts, hts⟩ := List.exists_cons_of_ne_nil (lineHead_tables hl)
  unfold lineIds at hids
  rw [hts, List.mapM_cons] at hids
  obtain ⟨id, -, hids⟩ := Option.bind_eq_some_iff.mp hids
  obtain ⟨rest, -, hids⟩ := Option.bind_eq_some_iff.mp hids
  obtain rfl := Option.some.inj hids
  exact ⟨id, List.mem_cons_self⟩

/-- The configuration of the line is read as it was written. -/
def KeepsSize (qt : Qt) (ofReal : ℕ → ℕ) (line : String) : Prop :=
  ∀ u, validLine qt line = some u → u.cfg.stored ofReal = u.cfg

theorem stored_eq_iff : cfg.stored ofReal = cfg ↔
    cfg.uploadSizeLimit < 2 ^ 63 ∨ ofReal cfg.uploadSizeLimit = cfg.uploadSizeLimit := by
  unfold ScoreBoardConfig.stored
  split
  · rename_i hlt
    exact iff_of_true rfl (Or.inl hlt)
  · rename_i hge
    constructor
    · intro h
      exact Or.inr (congrArg ScoreBoardConfig.uploadSizeLimit h)
    · intro h
      rw [h.resolve_left hge]

/-- **A valid line** sets each of its boards to its configuration exactly if this is kept. -/
theorem parseLine_sets {u : BoardUpdate} (h : validLine qt line = some u) (boards : Boards) :
    (∀ id ∈ u.ids, (parseLine qt ofReal boards line).1.get? (u.comId, id) = some u.cfg) ↔
      u.cfg.stored ofReal = u.cfg := by
  have hset : ∀ id ∈ u.ids, (parseLine qt ofReal boards line).1.get? (u.comId, id) =
      some (u.cfg.stored ofReal) := by
    intro id hid
    rw [parseLine_valid h, get?_applyUpdate, if_pos ⟨rfl, hid⟩]
  constructor
  · intro hall
    obtain ⟨id, hid⟩ := validLine_ids h
    exact Option.some.inj ((hset id hid).symm.trans (hall id hid))
  · intro hkept id hid
    rw [hset id hid, hkept]

/-- The ids before the one that does not parse are set already, as the line would set them. -/
def Harmless (qt : Qt) (ofReal : ℕ → ℕ) (boards : Boards) (line : String) : Prop :=
  ∀ l, lineHead qt line = some l → lineIds qt l.tableStrs = none →
    ∀ id ∈ idsBefore qt l.tableStrs, boards.get? (l.comId, id) = some (l.cfg.stored ofReal)

/-- **A line that is not valid** changes no board exactly if it is harmless. -/
theorem parseLine_invalid (h : validLine qt line = none) (boards : Boards) :
    SameBoards (parseLine qt ofReal boards line).1 boards ↔ Harmless qt ofReal boards line := by
  cases hl : lineHead qt line with
  | none =>
    refine iff_of_true ?_ fun l hl' => ?_
    · unfold parseLine
      rw [hl]
      exact fun _ => rfl
    · rw [hl] at hl'
      cases hl'
  | some l =>
    have hids := validLine_eq_none_iff.mp h l hl
    rw [parseLine_of_head hl]
    constructor
    · intro hsame l' hl' _ id hid
      rw [hl] at hl'
      obtain rfl := Option.some.inj hl'
      rw [← hsame, get?_applyUpdate, if_pos ⟨rfl, hid⟩]
    · intro hharmless key
      rw [get?_applyUpdate]
      split
      · rename_i hkey
        have hset := hharmless l hl hids key.2 hkey.2
        have heq : (l.comId, key.2) = key := Prod.ext hkey.1.symm rfl
        rw [heq] at hset
        exact hset.symm
      · rfl

theorem harmless_same (h : SameBoards boards boards') :
    Harmless qt ofReal boards line ↔ Harmless qt ofReal boards' line := by
  unfold Harmless
  simp only [h _]

/-! ## The text -/

/-- The boards after some lines. -/
def loadLines (qt : Qt) (ofReal : ℕ → ℕ) (boards : Boards) (lines : List String) : Boards :=
  lines.foldl (fun boards line => (parseLine qt ofReal boards line).1) boards

theorem loadScoreboardsCfgText_eq (qt : Qt) (ofReal : ℕ → ℕ) (boards : Boards) (text : String) :
    loadScoreboardsCfgText qt ofReal boards text =
      (loadLines qt ofReal boards (cfgLines qt text),
        (cfgLines qt text).filter fun line => (validLine qt line).isNone) := by
  have hrun : ∀ (lines invalid : List String) (boards : Boards),
      lines.foldl (fun s line =>
        let r := parseLine qt ofReal s.1 line
        (r.1, if r.2 then s.2 else s.2 ++ [line])) (boards, invalid) =
      (loadLines qt ofReal boards lines, invalid ++ lines.filter fun line => (validLine qt line).isNone) := by
    intro lines
    induction lines with
    | nil => simp [loadLines]
    | cons line lines ih =>
      intro invalid boards
      rw [List.foldl_cons]
      simp only
      rw [ih, parseLine_ok]
      cases hvalid : validLine qt line with
      | none => simp [loadLines, hvalid]
      | some u => simp [loadLines, hvalid]
  exact hrun _ [] boards

/-- The writes of a text, in their order. -/
def cfgWrites (qt : Qt) (ofReal : ℕ → ℕ) (lines : List String) : List ((String × ℕ) × ScoreBoardConfig) :=
  lines.flatMap fun line => (lineHead qt line).elim [] fun l =>
    (idsBefore qt l.tableStrs).map fun id => ((l.comId, id), l.cfg.stored ofReal)

/-- **A start of the score system** finds these writes in the file. -/
theorem loadScoreboardsCfg_text (qt : Qt) (ofReal : ℕ → ℕ) (db : ScoreDb) (text : String) :
    (loadScoreboardsCfg db (cfgWrites qt ofReal (cfgLines qt text))).boards =
      (loadScoreboardsCfgText qt ofReal db.boards text).1 := by
  rw [loadScoreboardsCfgText_eq]
  unfold loadScoreboardsCfg loadLines cfgWrites
  simp only
  generalize db.boards = boards
  induction cfgLines qt text generalizing boards with
  | nil => rfl
  | cons line lines ih =>
    rw [List.flatMap_cons, List.foldl_append, List.foldl_cons, ih]
    congr 1
    cases hl : lineHead qt line with
    | none =>
      unfold parseLine
      rw [hl]
      rfl
    | some l =>
      rw [parseLine_of_head hl, Option.elim_some, List.foldl_map]
      rfl

theorem applyLines_concat (boards : Boards) (pre : List String) (line : String) :
    applyLines qt boards (pre ++ [line]) =
      (validLine qt line).elim (applyLines qt boards pre) (applyUpdate (applyLines qt boards pre)) := by
  unfold applyLines
  rw [List.filterMap_append, List.foldl_append]
  cases h : validLine qt line with
  | none => simp [h]
  | some u => simp [h]

theorem loadLines_concat (boards : Boards) (pre : List String) (line : String) :
    loadLines qt ofReal boards (pre ++ [line]) =
      (parseLine qt ofReal (loadLines qt ofReal boards pre) line).1 := by
  unfold loadLines
  rw [List.foldl_append]
  rfl

/-- While no reported line changes a board, and what valid lines write is kept, the boards are those of
the valid lines. -/
theorem loadLines_same (lines : List String) (hkept : ∀ line ∈ lines, KeepsSize qt ofReal line)
    (h : ∀ pre line post, lines = pre ++ line :: post → validLine qt line = none →
      SameBoards (loadLines qt ofReal boards pre) (applyLines qt boards pre) →
      SameBoards (parseLine qt ofReal (loadLines qt ofReal boards pre) line).1
        (loadLines qt ofReal boards pre)) :
    SameBoards (loadLines qt ofReal boards lines) (applyLines qt boards lines) := by
  induction lines using List.reverseRecOn with
  | nil => exact fun _ => rfl
  | append_singleton pre line ih =>
    have hpre : SameBoards (loadLines qt ofReal boards pre) (applyLines qt boards pre) := by
      refine ih (fun line' hline' => hkept line' (List.mem_append_left _ hline')) ?_
      intro pre' line' post hsplit
      exact h pre' line' (post ++ [line]) (by simp [hsplit])
    rw [loadLines_concat, applyLines_concat]
    cases hvalid : validLine qt line with
    | none =>
      have hline := h pre line [] rfl hvalid hpre
      exact fun key => (hline key).trans (hpre key)
    | some u =>
      have hu : u.cfg.stored ofReal = u.cfg :=
        hkept line (List.mem_append_right _ List.mem_cons_self) u hvalid
      rw [parseLine_valid hvalid, hu]
      exact hpre.applyUpdate u

/-- **What loading a text must do.** -/
structure LoadOk (qt : Qt) (ofReal : ℕ → ℕ) (boards : Boards) (text : String) : Prop where
  table : SameBoards (loadScoreboardsCfgText qt ofReal boards text).1
    (applyLines qt boards (cfgLines qt text))
  reported : ∀ line, line ∈ (loadScoreboardsCfgText qt ofReal boards text).2 ↔
    line ∈ cfgLines qt text ∧ validLine qt line = none
  /-- a valid line sets every board that it lists to its configuration -/
  sets : ∀ pre line post u, cfgLines qt text = pre ++ line :: post → validLine qt line = some u →
    ∀ id ∈ u.ids, (parseLine qt ofReal (loadLines qt ofReal boards pre) line).1.get? (u.comId, id) =
      some u.cfg
  /-- a line that is reported finds and leaves the same boards -/
  unchanged : ∀ pre line post, cfgLines qt text = pre ++ line :: post → validLine qt line = none →
    SameBoards (parseLine qt ofReal (loadLines qt ofReal boards pre) line).1
      (loadLines qt ofReal boards pre)

/-- **Loading** does what it must exactly when every line with a table id that does not parse is
harmless where it stands, and the upload size of every valid line is one that the column holds, or is
read from a REAL as what it was. -/
theorem load_ok_iff (qt : Qt) (ofReal : ℕ → ℕ) (boards : Boards) (text : String) :
    LoadOk qt ofReal boards text ↔
      (∀ pre line post, cfgLines qt text = pre ++ line :: post →
        Harmless qt ofReal (applyLines qt boards pre) line) ∧
      ∀ line ∈ cfgLines qt text, ∀ u, validLine qt line = some u →
        u.cfg.uploadSizeLimit < 2 ^ 63 ∨ ofReal u.cfg.uploadSizeLimit = u.cfg.uploadSizeLimit := by
  constructor
  · intro h
    have hkept : ∀ line ∈ cfgLines qt text, KeepsSize qt ofReal line := by
      intro line hline u hu
      obtain ⟨pre, post, hsplit⟩ := List.append_of_mem hline
      exact (parseLine_sets hu _).mp (h.sets pre line post u hsplit hu)
    refine ⟨fun pre line post hsplit l hl hids => ?_, fun line hline u hu =>
      stored_eq_iff.mp (hkept line hline u hu)⟩
    have hvalid : validLine qt line = none := by
      unfold validLine
      rw [hl, Option.bind_some, hids, Option.map_none]
    have hsame : SameBoards (loadLines qt ofReal boards pre) (applyLines qt boards pre) := by
      refine loadLines_same pre (fun line' hline' => hkept line' ?_) ?_
      · rw [hsplit]
        exact List.mem_append_left _ hline'
      · intro pre' line' post' hsplit' hvalid' _
        exact h.unchanged pre' line' (post' ++ line :: post) (by simp [hsplit, hsplit']) hvalid'
    have hline := h.unchanged pre line post hsplit hvalid
    exact (harmless_same hsame).mp ((parseLine_invalid hvalid _).mp hline) l hl hids
  · rintro ⟨h, hsizes⟩
    have hkept : ∀ line ∈ cfgLines qt text, KeepsSize qt ofReal line := fun line hline u hu =>
      stored_eq_iff.mpr (hsizes line hline u hu)
    -- what the valid lines leave is what a line finds
    have hunchanged : ∀ pre line post, cfgLines qt text = pre ++ line :: post →
        validLine qt line = none →
        SameBoards (loadLines qt ofReal boards pre) (applyLines qt boards pre) →
        SameBoards (parseLine qt ofReal (loadLines qt ofReal boards pre) line).1
          (loadLines qt ofReal boards pre) :=
      fun pre line post hsplit hvalid hsame =>
        (parseLine_invalid hvalid _).mpr ((harmless_same hsame).mpr (h pre line post hsplit))
    refine ⟨?_, ?_, ?_, ?_⟩
    · rw [loadScoreboardsCfgText_eq]
      exact loadLines_same _ hkept hunchanged
    · intro line
      rw [loadScoreboardsCfgText_eq, List.mem_filter, Option.isNone_iff_eq_none]
    · intro pre line post u hsplit hu
      have hline : line ∈ cfgLines qt text := by
        rw [hsplit]
        exact List.mem_append_right _ List.mem_cons_self
      exact (parseLine_sets hu _).mpr (hkept line hline u hu)
    · intro pre line post hsplit hvalid
      refine hunchanged pre line post hsplit hvalid (loadLines_same pre (fun line' hline' => ?_) ?_)
      · refine hkept line' ?_
        rw [hsplit]
        exact List.mem_append_left _ hline'
      · intro pre' line' post' hsplit' hvalid' hsame
        exact hunchanged pre' line' (post' ++ line :: post) (by simp [hsplit, hsplit']) hvalid' hsame

/-- One board, and an id that is no number behind it. -/
def halfValidLine : String := "NPWR00001_00|1,x|50|FORCE_UPDATE|ASCENDING_ORDER|10|6000000"

/-- The first board of a line with a bad second id is set. -/
theorem half_valid_line_sets_board : ¬ ∀ (qt : Qt) (ofReal : ℕ → ℕ) (boards : Boards) (text : String),
    LoadOk qt ofReal boards text := by
  intro h
  have hsame := (h .ascii id ∅ halfValidLine).table ("NPWR00001_00", 1)
  have hset : ((loadScoreboardsCfgText .ascii id ∅ halfValidLine).1.get?
      ("NPWR00001_00", 1)).isSome = true := by
    decide +kernel
  have hnone : ((applyLines .ascii ∅ (cfgLines .ascii halfValidLine)).get?
      ("NPWR00001_00", 1)).isSome = false := by decide +kernel
  rw [hsame, hnone] at hset
  cases hset

end ShadNet
