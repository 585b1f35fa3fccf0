import Mathlib.Data.Prod.Lex
import ShadNet.Lib.TopK
import ShadNet.Spec.Score

/-!
# The score cache and the score table

* `LookupOk`: `lookup` names the position of every entry of a cached table, and nothing else;
  `insertEntry_ok` keeps it and says what an insertion makes of the entries.
* `BoardOk`: a restart would load what is cached. This says that the cached rows are a top
  of the board's rows (`boardOk_iff`).
* `records_board`, `records_other`: an accepted command keeps it for every board, except that
  a slot on the cached board may be recorded again below a row that the cache has not.
* `scores_ok_iff`: so the cache agrees with the table along a run exactly when that never
  happens.
-/

namespace ShadNet

open Lib

variable {t : ScoreTableCache} {l : ScoreLookup} {u c u' c' : ℤ} {i : ℕ} {e : ScoreEntry}
  {comId comId' : String} {boardId boardId' n : ℕ}

/-- Whose score it is: user and character. -/
abbrev ScoreEntry.slot (e : ScoreEntry) : ℤ × ℤ := (e.userId, e.characterId)

/-! ## The lookup -/

/-- Lookups after a position was put in. -/
theorem find_put : (l.put u c i).find u' c' = if (u', c') = (u, c) then some i else l.find u' c' :=
  Table.get?_set_nested

/-- Lookups after a slot was taken out. -/
theorem find_remove : (l.remove u c).find u' c' = if (u', c') = (u, c) then none else l.find u' c' :=
  Table.get?_del_nested

/-- `lookup` is the index of `sorted`. -/
structure LookupOk (t : ScoreTableCache) : Prop where
  slots : (t.sorted.map ScoreEntry.slot).Nodup
  found : ∀ i e, t.sorted[i]? = some e → t.lookup.find e.userId e.characterId = some i
  missing : ∀ u c, (u, c) ∉ t.sorted.map ScoreEntry.slot → t.lookup.find u c = none

theorem reindexFrom_missing : ∀ (es : List ScoreEntry) (i : ℕ) (l : ScoreLookup),
    (u, c) ∉ es.map ScoreEntry.slot → (reindexFrom es i l).find u c = l.find u c := by
  intro es
  induction es with
  | nil => intro i l _; rfl
  | cons e es ih =>
    intro i l h
    rw [List.map_cons, List.mem_cons, not_or] at h
    rw [reindexFrom, ih _ _ h.2, find_put, if_neg h.1]

/-- After the index was built, every entry is found at its position. -/
theorem reindexFrom_found : ∀ (es : List ScoreEntry) (i : ℕ) (l : ScoreLookup),
    (es.map ScoreEntry.slot).Nodup → ∀ j e, es[j]? = some e →
    (reindexFrom es i l).find e.userId e.characterId = some (i + j) := by
  intro es
  induction es with
  | nil => intro i l _ j e h; simp at h
  | cons e0 es ih =>
    intro i l hnd j e h
    rw [List.map_cons, List.nodup_cons] at hnd
    rw [reindexFrom]
    cases j with
    | zero =>
      obtain rfl := Option.some.inj h
      rw [reindexFrom_missing es _ _ hnd.1, find_put, if_pos rfl, Nat.add_zero]
    | succ j =>
      rw [ih (i + 1) _ hnd.2 j e (by simpa using h)]
      congr 1; omega

/-- Reindexing from a position up to which the lookup is right. -/
theorem reindex_lookupOk {start : ℕ} (hslots : (t.sorted.map ScoreEntry.slot).Nodup)
    (hfound : ∀ i e, i < start → t.sorted[i]? = some e →
      t.lookup.find e.userId e.characterId = some i)
    (hmissing : ∀ u c, (u, c) ∉ t.sorted.map ScoreEntry.slot → t.lookup.find u c = none) :
    LookupOk (reindex t start) := by
  have hsplit : t.sorted.map ScoreEntry.slot = (t.sorted.take start).map ScoreEntry.slot ++
      (t.sorted.drop start).map ScoreEntry.slot := by
    rw [← List.map_append, List.take_append_drop]
  have hnd := hslots
  rw [hsplit, List.nodup_append] at hnd
  refine ⟨hslots, ?_, ?_⟩
  · intro i e he
    by_cases hi : i < start
    · -- the loop only writes slots that stand from `start` on
      have hmem : e.slot ∈ (t.sorted.take start).map ScoreEntry.slot := by
        apply List.mem_map_of_mem
        apply List.mem_of_getElem? (i := i)
        rw [List.getElem?_take_of_lt hi]
        exact he
      refine (reindexFrom_missing _ _ _ ?_).trans (hfound i e hi he)
      exact fun h => hnd.2.2 _ hmem _ h rfl
    · -- the loop has written this slot
      have := reindexFrom_found (t.sorted.drop start) start t.lookup hnd.2.1 (i - start) e (by
        rw [List.getElem?_drop, Nat.add_sub_cancel' (by omega)]; exact he)
      rwa [Nat.add_sub_cancel' (by omega)] at this
  · intro u c h
    have h' : (u, c) ∉ (t.sorted.drop start).map ScoreEntry.slot := fun hm =>
      h (hsplit ▸ List.mem_append_right _ hm)
    exact (reindexFrom_missing _ _ _ h').trans (hmissing u c h)

/-- What the lookup finds stands there. -/
theorem LookupOk.get (h : LookupOk t) (hf : t.lookup.find u c = some i) :
    ∃ l1 o l2, t.sorted = l1 ++ o :: l2 ∧ l1.length = i ∧ o.slot = (u, c) := by
  have hmem : (u, c) ∈ t.sorted.map ScoreEntry.slot := by
    by_contra hno
    rw [h.missing u c hno] at hf
    cases hf
  obtain ⟨o, ho, hslot⟩ := List.mem_map.mp hmem
  obtain ⟨l1, l2, hl⟩ := List.append_of_mem ho
  refine ⟨l1, o, l2, hl, ?_, hslot⟩
  have := h.found l1.length o (by rw [hl]; simp)
  obtain ⟨rfl, rfl⟩ := Prod.mk.inj hslot
  rw [hf] at this
  exact (Option.some.inj this).symm

theorem LookupOk.none_of (h : LookupOk t) (hf : t.lookup.find u c = none) :
    (u, c) ∉ t.sorted.map ScoreEntry.slot := by
  intro hmem
  obtain ⟨o, ho, hslot⟩ := List.mem_map.mp hmem
  obtain ⟨i, hi⟩ := List.getElem?_of_mem ho
  obtain ⟨rfl, rfl⟩ := Prod.mk.inj hslot
  rw [h.found i o hi] at hf
  cases hf

/-- Taking the slot out leaves the other entries, and an index of them. -/
theorem removeSlot_ok (h : LookupOk t) (u c : ℤ) :
    LookupOk (removeSlot t u c).1 ∧ (u, c) ∉ (removeSlot t u c).1.sorted.map ScoreEntry.slot ∧
    (((u, c) ∉ t.sorted.map ScoreEntry.slot ∧ removeSlot t u c = (t, none)) ∨
      ∃ l1 o l2, t.sorted = l1 ++ o :: l2 ∧ o.slot = (u, c) ∧
        (removeSlot t u c).1.sorted = l1 ++ l2) := by
  unfold removeSlot
  cases hf : t.lookup.find u c with
  | none =>
    have hno := h.none_of hf
    exact ⟨h, hno, Or.inl ⟨hno, rfl⟩⟩
  | some pos =>
    obtain ⟨l1, o, l2, hl, rfl, hslot⟩ := h.get hf
    have herase : t.sorted.eraseIdx l1.length = l1 ++ l2 := by
      rw [hl, List.eraseIdx_append_of_length_le le_rfl]; simp
    have hnd := h.slots
    rw [hl, List.map_append, List.map_cons, List.nodup_middle, List.nodup_cons] at hnd
    rw [hslot, ← List.map_append] at hnd
    refine ⟨?_, ?_, Or.inr ⟨l1, o, l2, hl, hslot, herase⟩⟩
    · apply reindex_lookupOk <;> simp only [herase]
      · exact hnd.2
      · -- the entries before the erased one have kept their positions
        intro i e hi he
        rw [List.getElem?_append_left hi] at he
        have hne : e.slot ≠ (u, c) := by
          intro heq
          refine hnd.1 (heq ▸ List.mem_map_of_mem (List.mem_append_left _ ?_))
          exact List.mem_of_getElem? he
        rw [find_remove, if_neg hne]
        apply h.found
        rw [hl, List.getElem?_append_left hi]
        exact he
      · -- the erased slot is gone from the lookup too
        intro u' c' hno
        rw [find_remove]
        split
        · rfl
        · rename_i hne
          apply h.missing
          rw [hl, List.map_append, List.map_cons, List.mem_append, List.mem_cons, hslot]
          rw [List.map_append, List.mem_append] at hno
          rintro (hm | hm | hm)
          · exact hno (Or.inl hm)
          · exact hne hm
          · exact hno (Or.inr hm)
    · simp only [reindex, herase]
      exact hnd.1

/-- A new slot put in and the entries behind it reindexed. -/
theorem putIn_lookupOk (h : LookupOk t) (hno : e.slot ∉ t.sorted.map ScoreEntry.slot) {pos start : ℕ}
    (hpos : pos ≤ t.sorted.length) (hstart : start ≤ pos + 1) :
    LookupOk (reindex { t with
      sorted := t.sorted.take pos ++ e :: t.sorted.drop pos
      lookup := t.lookup.put e.userId e.characterId pos } start) := by
  have hperm : ((t.sorted.take pos ++ e :: t.sorted.drop pos).map ScoreEntry.slot).Perm
      (e.slot :: t.sorted.map ScoreEntry.slot) := by
    rw [← List.map_cons]
    exact (insertAt_perm t.sorted pos e).map _
  have hlen : (t.sorted.take pos).length = pos := by rw [List.length_take]; omega
  apply reindex_lookupOk <;> simp only
  · rw [hperm.nodup_iff, List.nodup_cons]
    exact ⟨hno, h.slots⟩
  · -- `start` is at most behind the new entry, so only `pos` itself and what stands before it
    -- have to be right already
    intro i e' hi he'
    rcases Nat.lt_or_eq_of_le (show i ≤ pos by omega) with hlt | rfl
    · rw [List.getElem?_append_left (by omega), List.getElem?_take_of_lt hlt] at he'
      have hne : e'.slot ≠ e.slot := fun heq =>
        hno (heq ▸ List.mem_map_of_mem (List.mem_of_getElem? he'))
      rw [find_put, if_neg hne]
      exact h.found i e' he'
    · rw [List.getElem?_append_right (by omega), hlen, Nat.sub_self] at he'
      obtain rfl := Option.some.inj he'
      rw [find_put, if_pos rfl]
  · intro u c hmiss
    rw [hperm.mem_iff, List.mem_cons, not_or] at hmiss
    rw [find_put, if_neg hmiss.1]
    exact h.missing u c hmiss.2

/-- Trimming drops at most the last entry, and its index. -/
theorem trim_ok (h : LookupOk t) (n : ℕ) : LookupOk (trim t n) ∧
    (trim t n).sorted = if n < t.sorted.length then t.sorted.dropLast else t.sorted := by
  unfold trim
  split
  · rename_i hlt
    cases hlast : t.sorted.getLast? with
    | none =>
      rw [List.getLast?_eq_none_iff] at hlast
      rw [hlast] at hlt
      simp at hlt
    | some last =>
      refine ⟨?_, rfl⟩
      have hl : t.sorted = t.sorted.dropLast ++ [last] :=
        (List.dropLast_append_getLast? last hlast).symm
      have hnd := h.slots
      rw [hl, List.map_append, List.nodup_append] at hnd
      refine ⟨hnd.1, ?_, ?_⟩
      · -- no other entry has the slot of the last one
        intro i e he
        have hne : e.slot ≠ last.slot := hnd.2.2 _ (List.mem_map_of_mem (List.mem_of_getElem? he)) _
          (by simp)
        have hi : i < t.sorted.dropLast.length := (List.getElem?_eq_some_iff.mp he).1
        simp only
        rw [find_remove, if_neg hne]
        apply h.found
        rw [hl, List.getElem?_append_left hi]
        exact he
      · intro u c hmiss
        simp only
        rw [find_remove]
        split
        · rfl
        · rename_i hne
          apply h.missing
          rw [hl, List.map_append, List.mem_append]
          rintro (hm | hm)
          · exact hmiss hm
          · exact hne (by simpa using hm)
  · exact ⟨h, rfl⟩

/-- An entry that is put in leaves the index right. -/
theorem putEntry_ok (h : LookupOk t) (hno : e.slot ∉ t.sorted.map ScoreEntry.slot)
    (removedAt : Option ℕ) (cfg : ScoreBoardConfig) :
    LookupOk (putEntry t removedAt cfg e).1 ∧ (putEntry t removedAt cfg e).1.sorted =
      if t.sorted.length < cfg.rankLimit ∨ insertPos t.sorted e cfg.sortMode < cfg.rankLimit then
        let put := insertAt t.sorted (insertPos t.sorted e cfg.sortMode) e
        if cfg.rankLimit < put.length then put.dropLast else put
      else t.sorted := by
  simp only [putEntry]
  by_cases hfits : t.sorted.length < cfg.rankLimit ∨ insertPos t.sorted e cfg.sortMode < cfg.rankLimit
  · rw [if_neg (by simpa [Nat.lt_or_ge, imp_iff_not_or] using hfits), if_pos hfits]
    have hpos : insertPos t.sorted e cfg.sortMode ≤ t.sorted.length :=
      (List.takeWhile_prefix _).length_le
    have hstart : reindexStart (insertPos t.sorted e cfg.sortMode) removedAt ≤
        insertPos t.sorted e cfg.sortMode + 1 := by
      cases removedAt with
      | none => exact le_rfl
      | some at' => exact min_le_left _ _
    exact trim_ok (putIn_lookupOk h hno hpos hstart) cfg.rankLimit
  · rw [if_pos (by simpa [not_or] using hfits), if_neg hfits]
    exact ⟨h, rfl⟩

/-- The entries that an insertion starts from: those of the other slots. -/
def others (t : ScoreTableCache) (e : ScoreEntry) : List ScoreEntry :=
  (removeSlot t e.userId e.characterId).1.sorted

theorem others_lastInsert (t : ScoreTableCache) (e : ScoreEntry) (now : ℕ) :
    (removeSlot { t with lastInsert := now } e.userId e.characterId).1.sorted = others t e := by
  unfold others removeSlot
  simp only
  cases t.lookup.find e.userId e.characterId <;> rfl

/-- **What `InsertScore` makes of a table.** -/
theorem insertEntry_ok (h : LookupOk t) (cfg : ScoreBoardConfig) (e : ScoreEntry) (now : ℕ) :
    LookupOk (insertEntry t cfg e now).1 ∧ (insertEntry t cfg e now).1.sorted =
      if (others t e).length < cfg.rankLimit ∨ insertPos (others t e) e cfg.sortMode < cfg.rankLimit
      then
        let put := insertAt (others t e) (insertPos (others t e) e cfg.sortMode) e
        if cfg.rankLimit < put.length then put.dropLast else put
      else others t e := by
  have h' : LookupOk { t with lastInsert := now } := ⟨h.slots, h.found, h.missing⟩
  obtain ⟨hok, hno, -⟩ := removeSlot_ok h' e.userId e.characterId
  rw [← others_lastInsert t e now]
  exact putEntry_ok hok hno _ cfg

/-! ## Ranks -/

/-- The key by which rows are ranked: smaller is better. -/
def rankKey (sortMode : ℕ) (r : ScoreRow) : ℤ ×ₗ ℕ ×ₗ ℤ :=
  toLex (if sortMode = 0 then -r.score else r.score, toLex (r.timestamp, r.userId))

/-- An entry of a board as a row. -/
def asRow (comId : String) (boardId : ℕ) (e : ScoreEntry) : ScoreRow :=
  ⟨comId, boardId, e.userId, e.characterId, e.score, e.comment, e.gameInfo, e.dataId, e.timestamp⟩

/-- One entry ranks before another if its key is smaller. -/
theorem ranksBefore_iff (comId : String) (boardId : ℕ) (a b : ScoreEntry) (sortMode : ℕ) :
    ranksBefore a b sortMode = true ↔
      rankKey sortMode (asRow comId boardId a) < rankKey sortMode (asRow comId boardId b) := by
  simp only [rankKey, asRow, Prod.Lex.toLex_lt_toLex]
  unfold ranksBefore
  -- the keys in turn: score, time stamp, user
  by_cases hs : a.score = b.score
  · by_cases ht : a.timestamp = b.timestamp
    · simp [hs, ht]
    · simp [hs, ht]
  · by_cases hm : sortMode = 0
    · simp only [hs, hm, ne_eq, not_false_eq_true, if_true, decide_eq_true_eq, neg_lt_neg_iff,
        neg_inj, false_and, or_false]
    · simp only [hs, hm, ne_eq, not_false_eq_true, if_true, if_false, decide_eq_true_eq,
        false_and, or_false]

/-- The query orders rows by their keys. -/
theorem orderedBy_iff (sortMode : ℕ) (a b : ScoreRow) :
    orderedBy sortMode a b ↔ rankKey sortMode a ≤ rankKey sortMode b := by
  simp only [rankKey, Prod.Lex.toLex_le_toLex]
  unfold orderedBy
  by_cases hs : a.score = b.score
  · by_cases ht : a.timestamp = b.timestamp
    · simp [hs, ht]
    · simp [hs, ht]
  · by_cases hm : sortMode = 0
    · simp only [hs, hm, ne_eq, not_false_eq_true, if_true, neg_lt_neg_iff, neg_inj, false_and,
        or_false]
    · simp only [hs, hm, ne_eq, not_false_eq_true, if_true, if_false, false_and, or_false]

/-- The cache inserts at the place of the entry's rank. -/
theorem insertBy_asRow (es : List ScoreEntry) (e : ScoreEntry) (sortMode : ℕ) :
    insertBy (rankKey sortMode) (asRow comId boardId e) (es.map (asRow comId boardId)) =
      (insertAt es (insertPos es e sortMode) e).map (asRow comId boardId) := by
  have hpos : lowerBound (rankKey sortMode) (es.map (asRow comId boardId)) (asRow comId boardId e) =
      insertPos es e sortMode := by
    unfold lowerBound insertPos
    rw [List.takeWhile_map, List.length_map]
    congr 2
    funext x
    rw [Function.comp_apply, Bool.eq_iff_iff, decide_eq_true_iff]
    exact (ranksBefore_iff comId boardId x e sortMode).symm
  unfold insertBy insertAt
  rw [hpos, List.map_append, List.map_cons, List.map_take, List.map_drop]

/-- On a table that is not overfull an insertion keeps the best `rankLimit` entries. -/
theorem insertEntry_take (h : LookupOk t) (cfg : ScoreBoardConfig) (e : ScoreEntry) (now : ℕ)
    (hlen : (others t e).length ≤ cfg.rankLimit) :
    (insertEntry t cfg e now).1.sorted.map (asRow comId boardId) =
      (insertBy (rankKey cfg.sortMode) (asRow comId boardId e)
        ((others t e).map (asRow comId boardId))).take cfg.rankLimit := by
  rw [insertBy_asRow, ← List.map_take, (insertEntry_ok h cfg e now).2]
  congr 1
  have hput : (insertAt (others t e) (insertPos (others t e) e cfg.sortMode) e).length =
      (others t e).length + 1 := by
    rw [(insertAt_perm _ _ _).length_eq, List.length_cons]
  have hpos : insertPos (others t e) e cfg.sortMode ≤ (others t e).length :=
    (List.takeWhile_prefix _).length_le
  split
  · -- the entry makes the board, and one more than `rankLimit` is cut to it
    simp only
    split
    · rw [List.dropLast_eq_take]; congr 1; omega
    · rw [List.take_of_length_le (by omega)]
  · -- the board is full, and the entry ranks behind all of it
    rename_i hno
    have he : (others t e).length = cfg.rankLimit := by omega
    unfold insertAt
    rw [show insertPos (others t e) e cfg.sortMode = (others t e).length by omega, List.take_length,
      List.take_left' he]

/-! ## The board -/

/-- The settings of a board, by default those of a new one. -/
def boardConfig (db : ScoreDb) (comId : String) (boardId : ℕ) : ScoreBoardConfig :=
  (db.boards.get? (comId, boardId)).getD {}

/-- The cached entries of a board. -/
def cached (m : ScoreCache) (comId : String) (boardId : ℕ) : List ScoreEntry :=
  ((m.table comId boardId).map (·.sorted)).getD []

/-- All of an entry but the name of the account, which a restart reads anew. -/
def ScoreEntry.content (e : ScoreEntry) : ScoreEntry := { e with npid := "" }

/-- **A restart would load what is cached**: what `ScoresForBoard` may read and `LoadTable` then
installs has the content of the cached table, in its order. -/
def BoardOk (username : ℤ → String) (s : ScoreState) (comId : String) (boardId : ℕ) : Prop :=
  ∃ entries, ScoresForBoard s.db username comId boardId (boardConfig s.db comId boardId) entries ∧
    ∀ now, (cached (loadTable s.cache comId boardId (boardConfig s.db comId boardId) entries now)
        comId boardId).map ScoreEntry.content = (cached s.cache comId boardId).map ScoreEntry.content

theorem table_store (m : ScoreCache) (t : ScoreTableCache) :
    (m.store comId boardId t).table comId' boardId' =
      if (comId', boardId') = (comId, boardId) then some t else m.table comId' boardId' :=
  Table.get?_set_nested

/-- The rows of a board are those with its game and its number. -/
theorem mem_rows {db : ScoreDb} {r : ScoreRow} :
    r ∈ db.rows comId boardId ↔ r ∈ db.score ∧ r.comId = comId ∧ r.boardId = boardId := by
  simp [ScoreDb.rows]

theorem asRow_toEntry {r : ScoreRow} {username : ℤ → String} (hc : r.comId = comId)
    (hb : r.boardId = boardId) : asRow comId boardId (r.toEntry username) = r := by
  subst hc hb; rfl

theorem content_eq_iff (comId : String) (boardId : ℕ) {a b : ScoreEntry} :
    a.content = b.content ↔ asRow comId boardId a = asRow comId boardId b := by
  cases a; cases b
  simp [ScoreEntry.content, asRow]

/-- **The cached rows are a top of the board's rows.** -/
theorem boardOk_iff {username : ℤ → String} {s : ScoreState} :
    BoardOk username s comId boardId ↔
      IsTop (rankKey (boardConfig s.db comId boardId).sortMode)
        (boardConfig s.db comId boardId).rankLimit (s.db.rows comId boardId)
        ((cached s.cache comId boardId).map (asRow comId boardId)) := by
  have hload : ∀ cfg entries now, cached (loadTable s.cache comId boardId cfg entries now)
      comId boardId = entries := by
    intro cfg entries now
    unfold cached loadTable
    rw [table_store, if_pos rfl]; rfl
  -- contents agree exactly when rows do
  have hcontent : ∀ es es' : List ScoreEntry,
      es.map ScoreEntry.content = es'.map ScoreEntry.content ↔
        es.map (asRow comId boardId) = es'.map (asRow comId boardId) := by
    intro es
    induction es with
    | nil => intro es'; cases es' <;> simp
    | cons a es ih =>
      intro es'
      cases es' with
      | nil => simp
      | cons b es' =>
        simp only [List.map_cons, List.cons.injEq, ih es',
          content_eq_iff comId boardId]
  -- reading a row back changes nothing of it but the account's name
  have hback : ∀ rows : List ScoreRow, (∀ r ∈ rows, r ∈ s.db.rows comId boardId) →
      (rows.map (ScoreRow.toEntry username)).map (asRow comId boardId) = rows := by
    intro rows h
    rw [List.map_map]
    refine (List.map_congr_left fun r hr => ?_).trans (List.map_id rows)
    obtain ⟨-, hc, hb⟩ := mem_rows.mp (h r hr)
    exact asRow_toEntry hc hb
  constructor
  · rintro ⟨entries, ⟨s0, hperm, hsort, rfl⟩, he⟩
    have he0 := he 0
    rw [hload, hcontent, hback _ fun r hr => hperm.mem_iff.mp (List.mem_of_mem_take hr)] at he0
    exact ⟨s0, hperm, hsort.imp fun h => (orderedBy_iff _ _ _).mp h, he0.symm⟩
  · rintro ⟨s0, hperm, hsort, he⟩
    refine ⟨_, ⟨s0, hperm, hsort.imp fun h => (orderedBy_iff _ _ _).mpr h, rfl⟩, fun now => ?_⟩
    rw [hload, hcontent, hback _ fun r hr => hperm.mem_iff.mp (List.mem_of_mem_take hr)]
    exact he.symm

/-! ## Steps -/

/-- The statement of a command writes its row: the slot has none, or one that it may
replace. -/
def Writes (s : ScoreState) (c : RecordScore) (req : RecordScoreRequest) : Prop :=
  ((s.db.boards.get? (c.comId, req.boardId)).isSome ∨ c.created = true) ∧ c.exec = true ∧
    ∀ old ∈ s.db.score, old.slot = (rowOf c.comId req.boardId (c.entry req)).slot →
      mayReplace (boardConfig s.db c.comId req.boardId) (rowOf c.comId req.boardId (c.entry req)) old

/-- The statement of a command writes its row under the configuration that was found. -/
def Accepts (s : ScoreState) (c : RecordScore) (req : RecordScoreRequest) (cfg : ScoreBoardConfig) :
    Prop :=
  c.exec = true ∧ ∀ old ∈ s.db.score, old.slot = (rowOf c.comId req.boardId (c.entry req)).slot →
    mayReplace cfg (rowOf c.comId req.boardId (c.entry req)) old

/-- The rows after a score was recorded. -/
def written (rows : List ScoreRow) (row : ScoreRow) : List ScoreRow :=
  row :: rows.filter fun r => r.slot ≠ row.slot

/-- A command that leaves scores and cache alone. -/
structure Rejects (s s' : ScoreState) : Prop where
  score : s'.db.score = s.db.score
  cache : s'.cache = s.cache

/-- A command that records a score under a configuration. -/
structure Records (s : ScoreState) (c : RecordScore) (req : RecordScoreRequest)
    (cfg : ScoreBoardConfig) (s' : ScoreState) : Prop where
  request : c.req = some req
  score : s'.db.score = written s.db.score (rowOf c.comId req.boardId (c.entry req))
  cache : s'.cache = (insertScore s.cache c.comId req.boardId cfg (c.entry req) c.insertedAt).1

/-- A lookup leaves the scores alone, however it fares. -/
theorem getBoard_score (db : ScoreDb) (comId : String) (boardId : ℕ) (created : Bool)
    (lookup : BoardLookup) : (getBoard db comId boardId created lookup).1.score = db.score := by
  unfold getBoard
  split
  · rfl
  · split <;> rfl

/-- The configurations stay if the query runs, and what is found is the board's. -/
theorem getBoard_config (db : ScoreDb) (comId : String) (boardId : ℕ) (created : Bool)
    {lookup : BoardLookup} (hselected : lookup.selected = true) :
    (∀ comId' boardId', boardConfig (getBoard db comId boardId created lookup).1 comId' boardId' =
      boardConfig db comId' boardId') ∧
    ∀ cfg ∈ (getBoard db comId boardId created lookup).2, cfg = boardConfig db comId boardId := by
  unfold getBoard
  rw [if_pos hselected]
  cases h : db.boards.get? (comId, boardId) with
  | some cfg =>
    refine ⟨fun _ _ => rfl, fun cfg' hcfg' => ?_⟩
    obtain rfl := Option.some.inj hcfg'
    simp [boardConfig, h]
  | none =>
    cases created with
    | false => exact ⟨fun _ _ => rfl, fun cfg hcfg => by simp [h] at hcfg⟩
    | true =>
      refine ⟨fun comId' boardId' => ?_, fun cfg hcfg => ?_⟩
      · simp only [boardConfig, if_true, Table.get?_set]
        by_cases hk : (comId', boardId') = (comId, boardId)
        · obtain ⟨rfl, rfl⟩ := Prod.mk.inj hk
          simp [h]
        · rw [if_neg hk]
      · -- the board that was created has the configuration of an unknown one
        simp only [if_true, Table.get?_set_self] at hcfg
        split at hcfg
        · obtain rfl := Option.some.inj hcfg
          simp [boardConfig, h]
        · cases hcfg

/-- If both queries run, only an unknown board that cannot be created is not found. -/
theorem getBoard_runs (db : ScoreDb) (comId : String) (boardId : ℕ) (created : Bool) :
    (getBoard db comId boardId created .runs).2 =
      if (db.boards.get? (comId, boardId)).isSome ∨ created = true
      then some (boardConfig db comId boardId) else none := by
  unfold getBoard BoardLookup.runs
  cases h : db.boards.get? (comId, boardId) with
  | some cfg => simp [boardConfig, h]
  | none => cases created <;> simp [boardConfig, h, Table.get?_set_self]

/-- A score recorded in the database replaces its slot's, if it is better. -/
theorem recordScore_ok (db : ScoreDb) (comId : String) (boardId : ℕ) (cfg : ScoreBoardConfig)
    (e : ScoreEntry) (exec : Bool) (hnd : (db.score.map ScoreRow.slot).Nodup) :
    (((recordScore db comId boardId cfg e exec).2 = none ∧ (recordScore db comId boardId cfg e exec).1 =
        { db with score := written db.score (rowOf comId boardId e) }) ∨
      ((recordScore db comId boardId cfg e exec).2 ≠ none ∧
        (recordScore db comId boardId cfg e exec).1 = db)) ∧
    ((recordScore db comId boardId cfg e exec).2 = none ↔ exec = true ∧ ∀ old ∈ db.score,
      old.slot = (rowOf comId boardId e).slot → mayReplace cfg (rowOf comId boardId e) old) := by
  unfold recordScore
  cases exec with
  | false => simp
  | true =>
    simp only [Bool.not_true, Bool.false_eq_true, if_false, true_and]
    cases hf : db.score.find? fun r => r.slot = (rowOf comId boardId e).slot with
    | none =>
      refine ⟨Or.inl ⟨rfl, rfl⟩, ?_⟩
      simp only [true_iff]
      intro old hold hslot
      have := List.find?_eq_none.mp hf old hold
      simp [hslot] at this
    | some old =>
      have hold := List.mem_of_find?_eq_some hf
      have hslot : old.slot = (rowOf comId boardId e).slot := by simpa using List.find?_some hf
      -- the slot is the primary key
      have huniq : ∀ r ∈ db.score, r.slot = (rowOf comId boardId e).slot → r = old := fun r hr hs =>
        List.inj_on_of_nodup_map hnd hr hold (hs.trans hslot.symm)
      by_cases hm : mayReplace cfg (rowOf comId boardId e) old = true
      · simp only [hm, if_true]
        refine ⟨Or.inl ⟨trivial, rfl⟩, ?_⟩
        simp only [true_iff]
        intro r hr hs
        rw [huniq r hr hs]; exact hm
      · simp only [hm]
        refine ⟨Or.inr ⟨by simp, rfl⟩, ?_⟩
        simp only [Bool.false_eq_true, if_false, reduceCtorEq, false_iff]
        intro h
        exact hm (h old hold hslot)

/-- The upsert is about scores only. -/
theorem recordScore_config (db : ScoreDb) (comId comId' : String) (boardId boardId' : ℕ)
    (cfg : ScoreBoardConfig) (e : ScoreEntry) (exec : Bool) :
    boardConfig (recordScore db comId boardId cfg e exec).1 comId' boardId' =
      boardConfig db comId' boardId' := by
  unfold recordScore
  simp only
  split
  · rfl
  · split
    · rfl
    · split <;> rfl

/-- What holds of database and cache after every command. -/
structure ScoreInv (s : ScoreState) : Prop where
  slots : (s.db.score.map ScoreRow.slot).Nodup
  lookup : ∀ comId boardId t, s.cache.table comId boardId = some t → LookupOk t

variable {s s' : ScoreState} {cmd : RecordScore} {req : RecordScoreRequest}

/-- The database after a command that decodes: the statement runs once the board is there. -/
theorem cmdRecordScore_db (s : ScoreState) (hreq : cmd.req = some req) (lookup : BoardLookup) :
    let board := getBoard s.db cmd.comId req.boardId cmd.created lookup
    (cmdRecordScore s cmd lookup).1.db = board.2.elim board.1 fun cfg =>
      (recordScore board.1 cmd.comId req.boardId cfg (cmd.entry req) cmd.exec).1 := by
  unfold cmdRecordScore
  rw [hreq]
  simp only
  rcases getBoard s.db cmd.comId req.boardId cmd.created lookup with ⟨db, cfg⟩
  cases cfg with
  | none => rfl
  | some cfg =>
    simp only [Option.elim_some]
    rcases recordScore db cmd.comId req.boardId cfg (cmd.entry req) cmd.exec with ⟨db', err⟩
    cases err with
    | none => rfl
    | some err => cases err <;> rfl

/-- **The configurations stay** if the first query runs. -/
theorem cmdRecordScore_config (s : ScoreState) (cmd : RecordScore) {lookup : BoardLookup}
    (hselected : lookup.selected = true) (comId : String) (boardId : ℕ) :
    boardConfig (cmdRecordScore s cmd lookup).1.db comId boardId = boardConfig s.db comId boardId := by
  cases hreq : cmd.req with
  | none =>
    unfold cmdRecordScore
    rw [hreq]
  | some req =>
    obtain ⟨hconfig, -⟩ := getBoard_config s.db cmd.comId req.boardId cmd.created hselected
    rw [cmdRecordScore_db s hreq]
    cases (getBoard s.db cmd.comId req.boardId cmd.created lookup).2 with
    | none => exact hconfig comId boardId
    | some cfg =>
      rw [Option.elim_some, recordScore_config]
      exact hconfig comId boardId

/-- **A score is refused**, and rows and cache stay, or it is accepted and recorded. -/
theorem cmdRecordScore_cases (hinv : ScoreInv s) (cmd : RecordScore) (lookup : BoardLookup) :
    (Rejects s (cmdRecordScore s cmd lookup).1 ∧ (cmdRecordScore s cmd lookup).2.1 ≠ .noError ∧
      ∀ req, cmd.req = some req →
        ∀ cfg ∈ (getBoard s.db cmd.comId req.boardId cmd.created lookup).2, ¬ Accepts s cmd req cfg) ∨
    ∃ req cfg, Records s cmd req cfg (cmdRecordScore s cmd lookup).1 ∧
      (cmdRecordScore s cmd lookup).2.1 = .noError ∧
      cfg ∈ (getBoard s.db cmd.comId req.boardId cmd.created lookup).2 ∧ Accepts s cmd req cfg := by
  unfold cmdRecordScore
  cases hreq : cmd.req with
  | none => exact Or.inl ⟨⟨rfl, rfl⟩, by simp, fun req h => by cases h⟩
  | some req =>
    have hscore := getBoard_score s.db cmd.comId req.boardId cmd.created lookup
    -- what is found is found for this request
    have hfound : ∀ req', some req = some req' →
        (getBoard s.db cmd.comId req'.boardId cmd.created lookup).2 =
          (getBoard s.db cmd.comId req.boardId cmd.created lookup).2 := by
      intro req' hreq'
      rw [Option.some.inj hreq']
    simp only
    rcases hboard : getBoard s.db cmd.comId req.boardId cmd.created lookup with ⟨db, ocfg⟩
    rw [hboard] at hscore hfound
    simp only at hscore hfound ⊢
    cases ocfg with
    | none =>
      refine Or.inl ⟨⟨hscore, rfl⟩, by simp, fun req' hreq' cfg hcfg => ?_⟩
      rw [hfound req' hreq'] at hcfg
      cases hcfg
    | some cfg =>
      obtain ⟨hcases, hiff⟩ := recordScore_ok db cmd.comId req.boardId cfg (cmd.entry req) cmd.exec
        (hscore ▸ hinv.slots)
      simp only
      generalize recordScore db cmd.comId req.boardId cfg (cmd.entry req) cmd.exec = w at hcases hiff ⊢
      obtain ⟨db', err⟩ := w
      simp only at hcases hiff ⊢
      rw [hscore] at hcases hiff
      rcases hcases with ⟨rfl, rfl⟩ | ⟨herr, rfl⟩
      · -- the row is written, and only then the cache
        exact Or.inr ⟨req, cfg, ⟨hreq, rfl, rfl⟩, rfl, hfound req rfl, hiff.mp rfl⟩
      · have hno : ∀ req', some req = some req' →
            ∀ cfg' ∈ (getBoard s.db cmd.comId req'.boardId cmd.created lookup).2,
              ¬ Accepts s cmd req' cfg' := by
          intro req' hreq' cfg' hcfg' haccepts
          rw [hfound req' hreq'] at hcfg'
          obtain rfl := Option.some.inj hreq'
          obtain rfl := Option.some.inj hcfg'
          exact herr (hiff.mpr haccepts)
        left
        cases err with
        | none => exact absurd rfl herr
        | some err => cases err <;> exact ⟨⟨hscore, rfl⟩, by simp, hno⟩

/-- A command whose lookup runs, under the configuration of the board. -/
theorem cmdRecordScore_runs (hinv : ScoreInv s) (cmd : RecordScore) :
    (Rejects s (cmdRecordScore s cmd .runs).1 ∧ ∀ req, cmd.req = some req → ¬ Writes s cmd req) ∨
    ∃ req, Records s cmd req (boardConfig s.db cmd.comId req.boardId) (cmdRecordScore s cmd .runs).1 ∧
      Writes s cmd req := by
  rcases cmdRecordScore_cases hinv cmd .runs with ⟨hr, -, hno⟩ | ⟨req, cfg, hr, -, hfound, haccepts⟩
  · refine Or.inl ⟨hr, fun req hreq hw => ?_⟩
    have hget := getBoard_runs s.db cmd.comId req.boardId cmd.created
    rw [if_pos hw.1] at hget
    exact hno req hreq _ hget hw.2
  · have hget := getBoard_runs s.db cmd.comId req.boardId cmd.created
    rw [Option.mem_def.mp hfound] at hget
    split at hget
    · rename_i hboard
      obtain rfl := Option.some.inj hget
      exact Or.inr ⟨req, hr, hboard, haccepts⟩
    · cases hget

/-- A board that is looked up has its entries indexed. -/
theorem getOrCreate_ok (hinv : ScoreInv s) (comId : String) (boardId : ℕ) (cfg : ScoreBoardConfig) :
    LookupOk (s.cache.getOrCreate comId boardId cfg) ∧
    (s.cache.getOrCreate comId boardId cfg).sorted = cached s.cache comId boardId := by
  unfold ScoreCache.getOrCreate cached
  cases h : s.cache.table comId boardId with
  | none => exact ⟨⟨by simp, by simp, fun _ _ _ => rfl⟩, rfl⟩
  | some t => exact ⟨hinv.lookup _ _ t h, rfl⟩

/-- Recording a score keeps the invariant. -/
theorem cmdRecordScore_inv (hinv : ScoreInv s) (cmd : RecordScore) (lookup : BoardLookup) :
    ScoreInv (cmdRecordScore s cmd lookup).1 := by
  rcases cmdRecordScore_cases hinv cmd lookup with ⟨hr, -⟩ | ⟨req, cfg, hr, -⟩
  · exact ⟨hr.score ▸ hinv.slots, hr.cache ▸ hinv.lookup⟩
  · constructor
    · -- the upsert has dropped the old row of the slot
      rw [hr.score, written, List.map_cons, List.nodup_cons]
      refine ⟨?_, hinv.slots.sublist (List.filter_sublist.map _)⟩
      intro hmem
      obtain ⟨r, hr', hslot⟩ := List.mem_map.mp hmem
      simpa [hslot] using (List.mem_filter.mp hr').2
    · intro comId boardId t ht
      rw [hr.cache] at ht
      unfold insertScore at ht
      rw [table_store] at ht
      split at ht
      · obtain rfl := Option.some.inj ht
        exact (insertEntry_ok (getOrCreate_ok hinv _ _ _).1 _ _ _).1
      · exact hinv.lookup comId boardId t ht

/-! ## Boards -/

/-- The slots on the cached board. -/
def cachedSlots (m : ScoreCache) (comId : String) (boardId : ℕ) : List (ℤ × ℤ) :=
  (cached m comId boardId).map ScoreEntry.slot

/-- A command that records a slot of the cached board again finds no row off the cached board
that ranks before the new entry. -/
def Covered (s : ScoreState) (cmd : RecordScore) : Prop :=
  ∀ req, cmd.req = some req → Writes s cmd req →
    (cmd.entry req).slot ∈ cachedSlots s.cache cmd.comId req.boardId →
    ∀ r ∈ s.db.rows cmd.comId req.boardId,
      (r.userId, r.characterId) ∉ cachedSlots s.cache cmd.comId req.boardId →
      ranksBefore (r.toEntry fun _ => "") (cmd.entry req)
        (boardConfig s.db cmd.comId req.boardId).sortMode = false

theorem cached_insertScore (m : ScoreCache) (cfg : ScoreBoardConfig) (e : ScoreEntry) (now : ℕ)
    (comId comId' : String) (boardId boardId' : ℕ) :
    cached (insertScore m comId boardId cfg e now).1 comId' boardId' =
      if (comId', boardId') = (comId, boardId) then
        (insertEntry (m.getOrCreate comId boardId cfg) cfg e now).1.sorted
      else cached m comId' boardId' := by
  unfold cached insertScore
  simp only
  rw [table_store]
  split <;> rfl

/-- Other boards are left alone. -/
theorem records_other {cfg : ScoreBoardConfig} (hr : Records s cmd req cfg s')
    {username : ℤ → String} (hne : (comId, boardId) ≠ (cmd.comId, req.boardId))
    (hconfig : boardConfig s'.db comId boardId = boardConfig s.db comId boardId) :
    BoardOk username s' comId boardId ↔ BoardOk username s comId boardId := by
  have hrows : s'.db.rows comId boardId = s.db.rows comId boardId := by
    unfold ScoreDb.rows
    rw [hr.score, written, List.filter_cons_of_neg]
    · rw [List.filter_filter]
      apply List.filter_congr
      intro r _
      by_cases hb : r.comId = comId ∧ r.boardId = boardId
      · obtain ⟨rfl, rfl⟩ := hb
        simp only [ne_eq, Prod.mk.injEq] at hne
        simp only [ScoreRow.slot, rowOf]
        simp; tauto
      · simp [hb]
    · rw [decide_eq_true_iff]
      rintro ⟨hc, hb⟩
      exact hne (Prod.ext hc.symm hb.symm)
  have hcached : cached s'.cache comId boardId = cached s.cache comId boardId := by
    rw [hr.cache, cached_insertScore, if_neg hne]
  rw [boardOk_iff, boardOk_iff, hconfig, hrows, hcached]

theorem slot_asRow_iff {r : ScoreRow} (hr : r.comId = comId ∧ r.boardId = boardId) (e : ScoreEntry) :
    r.slot = (asRow comId boardId e).slot ↔ (r.userId, r.characterId) = e.slot := by
  obtain ⟨rfl, rfl⟩ := hr
  simp [ScoreRow.slot, asRow, ScoreEntry.slot]

section insertion

variable {cfg : ScoreBoardConfig} {e : ScoreEntry} {now : ℕ} {rows rest : List ScoreRow}

/-- Cached rows and the rest have different slots. -/
theorem rest_not_cached {l : List ScoreEntry} (hboard : ∀ r ∈ rows, r.comId = comId ∧ r.boardId = boardId)
    (hnd : (rows.map ScoreRow.slot).Nodup) (hrest : (l.map (asRow comId boardId) ++ rest).Perm rows) :
    ∀ r ∈ rest, (r.userId, r.characterId) ∉ l.map ScoreEntry.slot := by
  intro r hr hmem
  obtain ⟨o, ho, hs⟩ := List.mem_map.mp hmem
  have hnd' := (hrest.map ScoreRow.slot).nodup_iff.mpr hnd
  rw [List.map_append, List.nodup_append] at hnd'
  have hrows : r ∈ rows := hrest.mem_iff.mp (List.mem_append_right _ hr)
  refine hnd'.2.2 _ (List.mem_map_of_mem (List.mem_map_of_mem ho)) _ (List.mem_map_of_mem hr) ?_
  exact ((slot_asRow_iff (hboard r hrows) o).mpr hs.symm).symm

/-- A slot that is not cached: the entry goes into a top of the rows, by its rank. -/
theorem insertEntry_isTop_new (ht : LookupOk t) (hboard : ∀ r ∈ rows, r.comId = comId ∧ r.boardId = boardId)
    (hnd : (rows.map ScoreRow.slot).Nodup)
    (htop : IsTop (rankKey cfg.sortMode) cfg.rankLimit rows (t.sorted.map (asRow comId boardId)))
    (hno : e.slot ∉ t.sorted.map ScoreEntry.slot) (hoth : others t e = t.sorted) :
    IsTop (rankKey cfg.sortMode) cfg.rankLimit (written rows (asRow comId boardId e))
      ((insertEntry t cfg e now).1.sorted.map (asRow comId boardId)) := by
  obtain ⟨rest, hrest, -, hlen, -⟩ := htop.split
  rw [List.length_map] at hlen
  rw [insertEntry_take ht cfg e now (hoth ▸ hlen), hoth]
  by_cases hold : ∃ old ∈ rows, old.slot = (asRow comId boardId e).slot
  · -- an old row of the slot is not cached
    obtain ⟨old, hold, hs⟩ := hold
    have hothers : rows.Perm (old :: rows.filter fun r => r.slot ≠ (asRow comId boardId e).slot) := by
      rw [← hs]
      exact perm_cons_others hnd hold
    have hin : old ∈ rest := by
      rcases List.mem_append.mp (hrest.mem_iff.mpr hold) with hin | hin
      · obtain ⟨o, ho, rfl⟩ := List.mem_map.mp hin
        have hmem : e.slot ∈ t.sorted.map ScoreEntry.slot :=
          List.mem_map.mpr ⟨o, ho, (slot_asRow_iff (hboard _ hold) e).mp hs⟩
        exact absurd hmem hno
      · exact hin
    exact (htop.drop hrest hothers hin).insert _
  · have hself : rows.filter (fun r => r.slot ≠ (asRow comId boardId e).slot) = rows := by
      rw [List.filter_eq_self]
      intro r hr
      simpa using fun hs => hold ⟨r, hr, hs⟩
    unfold written
    rw [hself]
    exact htop.insert _

/-- One that is: the entry is ranked among the rows that stay cached, whatever the rest holds. -/
theorem insertEntry_isTop_old (ht : LookupOk t) (hboard : ∀ r ∈ rows, r.comId = comId ∧ r.boardId = boardId)
    (hnd : (rows.map ScoreRow.slot).Nodup)
    (htop : IsTop (rankKey cfg.sortMode) cfg.rankLimit rows (t.sorted.map (asRow comId boardId)))
    (hrest : (t.sorted.map (asRow comId boardId) ++ rest).Perm rows) (hlen : t.sorted.length ≤ cfg.rankLimit)
    {l1 l2 : List ScoreEntry} {o : ScoreEntry} (hl : t.sorted = l1 ++ o :: l2) (ho : o.slot = e.slot)
    (hoth : others t e = l1 ++ l2) :
    IsTop (rankKey cfg.sortMode) cfg.rankLimit (written rows (asRow comId boardId e))
        ((insertEntry t cfg e now).1.sorted.map (asRow comId boardId)) ↔
      ∀ r ∈ rest, rankKey cfg.sortMode (asRow comId boardId e) ≤ rankKey cfg.sortMode r := by
  have hlen' : (l1 ++ l2).length + 1 ≤ cfg.rankLimit := by
    rw [hl] at hlen; simp at hlen ⊢; omega
  rw [insertEntry_take ht cfg e now (by rw [hoth]; omega), hoth, List.map_append]
  rw [List.take_of_length_le (by
    rw [(insertBy_perm _ _ _).length_eq, List.length_cons, ← List.map_append, List.length_map]
    exact hlen')]
  rw [hl, List.map_append, List.map_cons] at htop hrest
  have hold : asRow comId boardId o ∈ rows := hrest.mem_iff.mp (by simp)
  have hs : (asRow comId boardId o).slot = (asRow comId boardId e).slot :=
    (slot_asRow_iff (hboard _ hold) e).mpr ho
  -- the upsert drops the one old row of the slot
  have hothers : rows.Perm
      (asRow comId boardId o :: rows.filter fun r => r.slot ≠ (asRow comId boardId e).slot) := by
    rw [← hs]
    exact perm_cons_others hnd hold
  unfold written
  exact htop.replace hrest hothers _

end insertion

/-- **An insertion into a table that holds a top of the rows.** -/
theorem insertEntry_isTop (ht : LookupOk t) (cfg : ScoreBoardConfig) (e : ScoreEntry) (now : ℕ)
    {rows : List ScoreRow} (hboard : ∀ r ∈ rows, r.comId = comId ∧ r.boardId = boardId)
    (hnd : (rows.map ScoreRow.slot).Nodup)
    (htop : IsTop (rankKey cfg.sortMode) cfg.rankLimit rows (t.sorted.map (asRow comId boardId))) :
    IsTop (rankKey cfg.sortMode) cfg.rankLimit (written rows (asRow comId boardId e))
        ((insertEntry t cfg e now).1.sorted.map (asRow comId boardId)) ↔
      (e.slot ∈ t.sorted.map ScoreEntry.slot → ∀ r ∈ rows,
        (r.userId, r.characterId) ∉ t.sorted.map ScoreEntry.slot →
        rankKey cfg.sortMode (asRow comId boardId e) ≤ rankKey cfg.sortMode r) := by
  obtain ⟨rest, hrest, -, hlen, -⟩ := htop.split
  rw [List.length_map] at hlen
  obtain ⟨-, -, ⟨hno, hsame⟩ | ⟨l1, o, l2, hl, ho, hmoved⟩⟩ := removeSlot_ok ht e.userId e.characterId
  · have hoth : others t e = t.sorted := by unfold others; rw [hsame]
    exact iff_of_true (insertEntry_isTop_new ht hboard hnd htop hno hoth) fun h => absurd h hno
  · have hmem : e.slot ∈ t.sorted.map ScoreEntry.slot := by
      rw [hl]
      exact List.mem_map.mpr ⟨o, by simp, ho⟩
    rw [insertEntry_isTop_old ht hboard hnd htop hrest hlen hl ho hmoved]
    -- the rows off the board are `rest`
    constructor
    · intro h _ r hr hno
      rcases List.mem_append.mp (hrest.mem_iff.mpr hr) with hin | hin
      · obtain ⟨x, hx, rfl⟩ := List.mem_map.mp hin
        exact absurd (List.mem_map_of_mem (f := ScoreEntry.slot) hx) hno
      · exact h r hin
    · intro h r hr
      exact h hmem r (hrest.mem_iff.mp (List.mem_append_right _ hr)) (rest_not_cached hboard hnd hrest r hr)

/-- **The board of a recorded score** is right again exactly when the command is covered. -/
theorem records_board (hinv : ScoreInv s) {username : ℤ → String}
    (hr : Records s cmd req (boardConfig s.db cmd.comId req.boardId) s') (hwrites : Writes s cmd req)
    (hconfig : boardConfig s'.db cmd.comId req.boardId = boardConfig s.db cmd.comId req.boardId)
    (hok : BoardOk username s cmd.comId req.boardId) :
    BoardOk username s' cmd.comId req.boardId ↔ Covered s cmd := by
  obtain ⟨ht, hsorted⟩ := getOrCreate_ok hinv cmd.comId req.boardId
    (boardConfig s.db cmd.comId req.boardId)
  have hrows : s'.db.rows cmd.comId req.boardId =
      written (s.db.rows cmd.comId req.boardId) (asRow cmd.comId req.boardId (cmd.entry req)) := by
    unfold ScoreDb.rows
    rw [hr.score, written, List.filter_cons_of_pos (by simp [rowOf]), List.filter_comm]
    rfl
  have hcached : cached s'.cache cmd.comId req.boardId =
      (insertEntry (s.cache.getOrCreate cmd.comId req.boardId
        (boardConfig s.db cmd.comId req.boardId)) (boardConfig s.db cmd.comId req.boardId)
        (cmd.entry req) cmd.insertedAt).1.sorted := by
    rw [hr.cache, cached_insertScore, if_pos rfl]
  have htop := boardOk_iff.mp hok
  rw [← hsorted] at htop
  rw [boardOk_iff, hconfig, hrows, hcached, insertEntry_isTop ht _ _ _
    (fun r hr => (mem_rows.mp hr).2) (hinv.slots.sublist (List.filter_sublist.map _)) htop, hsorted]
  have hrank : ∀ r ∈ s.db.rows cmd.comId req.boardId,
      (ranksBefore (r.toEntry fun _ => "") (cmd.entry req)
        (boardConfig s.db cmd.comId req.boardId).sortMode = false ↔
      rankKey (boardConfig s.db cmd.comId req.boardId).sortMode
          (asRow cmd.comId req.boardId (cmd.entry req)) ≤
        rankKey (boardConfig s.db cmd.comId req.boardId).sortMode r) := by
    intro r hmem
    obtain ⟨-, hc, hb⟩ := mem_rows.mp hmem
    rw [← Bool.not_eq_true, ranksBefore_iff cmd.comId req.boardId,
      asRow_toEntry hc hb, not_lt]
  constructor
  · intro h req' hreq' _ hmem r hr' hno
    obtain rfl := Option.some.inj (hr.request.symm.trans hreq')
    exact (hrank r hr').mpr (h hmem r hr' hno)
  · intro h hmem r hr' hno
    exact (hrank r hr').mp (h req hr.request hwrites hmem r hr' hno)

/-- **The cache is what a restart would load**, for every board and after every command, exactly
when every command of the run is covered. For boards of fewer than `2^31` ranks, as positions are
`int`s. -/
theorem scores_ok_iff (username : ℤ → String) (boards : Table (String × ℕ) ScoreBoardConfig)
    (cmds : List RecordScore) :
    (∀ n comId boardId, BoardOk username (scoresAfter boards cmds n) comId boardId) ↔
      ∀ n (hn : n < cmds.length), Covered (scoresAfter boards cmds n) cmds[n] := by
  unfold scoresAfter
  refine runAt_iff_guard (I := ScoreInv)
    (P := fun s => ∀ comId boardId, BoardOk username s comId boardId) ?_ ?_ ?_ ?_ ?_
  · exact ⟨List.nodup_nil, fun _ _ _ h => nomatch h⟩
  · exact fun s cmd hinv => cmdRecordScore_inv hinv cmd .runs
  · intro comId boardId
    rw [boardOk_iff]
    exact ⟨[], List.Perm.refl _, List.Pairwise.nil, List.take_nil.symm⟩
  · -- a covered command keeps every board right
    intro s cmd hinv hok hcov comId boardId
    have hconfig := cmdRecordScore_config s cmd (rfl : BoardLookup.runs.selected = true)
    rcases cmdRecordScore_runs hinv cmd with ⟨hr, -⟩ | ⟨req, hr, hwrites⟩
    · have := hok comId boardId
      rw [boardOk_iff] at this ⊢
      rwa [hconfig, ScoreDb.rows, hr.score, hr.cache]
    · by_cases hb : (comId, boardId) = (cmd.comId, req.boardId)
      · obtain ⟨rfl, rfl⟩ := Prod.mk.inj hb
        exact (records_board hinv hr hwrites (hconfig _ _) (hok _ _)).mpr hcov
      · exact (records_other hr hb (hconfig _ _)).mpr (hok comId boardId)
  · -- any other does not keep its own
    intro s cmd hinv hok hcov hok'
    have hconfig := cmdRecordScore_config s cmd (rfl : BoardLookup.runs.selected = true)
    rcases cmdRecordScore_runs hinv cmd with ⟨-, hno⟩ | ⟨req, hr, hwrites⟩
    · refine hcov fun req hreq hw => absurd hw (hno req hreq)
    · exact hcov ((records_board hinv hr hwrites (hconfig _ _) (hok _ _)).mp (hok' _ _))

/-- A board of one rank that keeps the latest score. -/
def latestOnly : Table (String × ℕ) ScoreBoardConfig :=
  (∅ : Table (String × ℕ) ScoreBoardConfig).set ("NPWR00001_00", 0) { rankLimit := 1, updateMode := 1 }

/-- A score of the user. -/
def scoreOf (userId score : ℤ) (timestamp : ℕ) : RecordScore :=
  ⟨userId, "user", "NPWR00001_00", some ⟨0, 0, score, "", []⟩, timestamp, timestamp, true, true⟩

/-- The first user scores 10, the second 5, then the first 1: the board keeps the 1, while the
table has the 5. -/
theorem worse_score_stays : ¬ BoardOk (fun _ => "user")
    (scoresAfter latestOnly [scoreOf 1 10 1, scoreOf 2 5 2, scoreOf 1 1 3] 3) "NPWR00001_00" 0 := by
  rw [boardOk_iff]
  intro h
  have hsplit : ([⟨"NPWR00001_00", 0, 1, 0, 1, "", [], none, 3⟩] ++
      [⟨"NPWR00001_00", 0, 2, 0, 5, "", [], none, 2⟩] : List ScoreRow).Perm
      ((scoresAfter latestOnly [scoreOf 1 10 1, scoreOf 2 5 2, scoreOf 1 1 3] 3).db.rows
        "NPWR00001_00" 0) := List.Perm.refl _
  have hle := h.le hsplit (List.mem_cons_self ..) (List.mem_cons_self ..)
  exact absurd hle (by decide)

end ShadNet
