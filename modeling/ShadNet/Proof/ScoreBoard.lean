import ShadNet.Proof.ScoreData

/-!
# The cached boards

A board under one configuration, along loads, insertions and new data of scores.

* `TableOk`: the table has one entry a slot, in the order of the ranks and within the limit, and
  `lookup` is its index.
* `InsertOk`: what an insertion tells, and what it does to the other slots.
* `boards_ok`: both hold along every run.
-/

namespace ShadNet

open Lib

variable {t : ScoreTableCache} {cfg : ScoreBoardConfig} {e : ScoreEntry} {comId : String}
  {boardId i : ℕ} {u c : ℤ}

/-- No entry ranks before an earlier one. -/
def Ranked (sortMode : ℕ) (l : List ScoreEntry) : Prop :=
  l.Pairwise fun a b => ranksBefore b a sortMode = false

/-- **A table is right.** -/
structure TableOk (cfg : ScoreBoardConfig) (t : ScoreTableCache) : Prop where
  slots : (t.sorted.map ScoreEntry.slot).Nodup
  ranked : Ranked cfg.sortMode t.sorted
  length : t.sorted.length ≤ cfg.rankLimit
  lookup : ∀ u c i, t.lookup.find u c = some i ↔ ∃ e, t.sorted[i]? = some e ∧ e.slot = (u, c)

/-- The entries of the slots other than `slot`. -/
def otherSlots (slot : ℤ × ℤ) (l : List ScoreEntry) : List ScoreEntry :=
  l.filter fun e => e.slot ≠ slot

/-- **An insertion of `e` is right**: `r` tells where the entry stands, or that it does not, and the
other slots stay as they are, except that the last of them goes if there were enough. -/
structure InsertOk (cfg : ScoreBoardConfig) (e : ScoreEntry) (before after : List ScoreEntry) (r : ℕ) :
    Prop where
  result : (0 < r ∧ r ≤ cfg.rankLimit) ∨ r = (cfg.rankLimit + 1) % 2 ^ 32
  ranked : 0 < r → r ≤ cfg.rankLimit → after[r - 1]? = some e
  unranked : r = (cfg.rankLimit + 1) % 2 ^ 32 → e.slot ∉ after.map ScoreEntry.slot
  others : otherSlots e.slot after = otherSlots e.slot before ∨
    (cfg.rankLimit ≤ (otherSlots e.slot before).length ∧
      otherSlots e.slot after = (otherSlots e.slot before).dropLast)

/-- The calls that a board is under: its configuration is fixed, and what is loaded has one entry a
slot, in the order of the query and within the limit. -/
def ScoreCall.Regular (comId : String) (boardId : ℕ) (cfg : ScoreBoardConfig) : ScoreCall → Prop
  | .loadTable comId' boardId' cfg' entries _ => (comId, boardId) = (comId', boardId') →
      cfg' = cfg ∧ (entries.map ScoreEntry.slot).Nodup ∧
      entries.Pairwise (fun a b => orderedBy cfg.sortMode (asRow comId boardId a)
        (asRow comId boardId b)) ∧ entries.length ≤ cfg.rankLimit
  | .insertScore comId' boardId' cfg' _ _ => (comId, boardId) = (comId', boardId') → cfg' = cfg
  | .setGameData .. => True

/-! ## Ranks -/

/-- Entries are ranked if their rows are sorted by key. -/
theorem ranked_iff (comId : String) (boardId sortMode : ℕ) (l : List ScoreEntry) :
    Ranked sortMode l ↔ SortedBy (rankKey sortMode) (l.map (asRow comId boardId)) := by
  unfold Ranked SortedBy
  rw [List.pairwise_map]
  refine List.Pairwise.iff fun {a b} => ?_
  rw [← Bool.not_eq_true, ranksBefore_iff comId boardId, not_lt]

/-- The data of an entry is no part of its rank. -/
theorem Ranked.setData {sortMode : ℕ} {l : List ScoreEntry} (h : Ranked sortMode l) (i dataId : ℕ) :
    Ranked sortMode (l.modify i fun e => { e with dataId := some dataId }) := by
  rw [ranked_iff "" 0] at h ⊢
  unfold SortedBy at h ⊢
  rw [← List.pairwise_map (f := rankKey sortMode), List.map_map] at h ⊢
  rwa [map_setData fun _ => rfl]

/-! ## Insertion -/

theorem otherSlots_of_notMem {slot : ℤ × ℤ} {l : List ScoreEntry} (h : slot ∉ l.map ScoreEntry.slot) :
    otherSlots slot l = l := by
  unfold otherSlots
  rw [List.filter_eq_self]
  intro x hx
  exact decide_eq_true fun heq => h (heq ▸ List.mem_map_of_mem hx)

/-- Without the slot, the insertion of its entry is undone. -/
theorem otherSlots_insertAt {l : List ScoreEntry} (h : e.slot ∉ l.map ScoreEntry.slot) (i : ℕ) :
    otherSlots e.slot (insertAt l i e) = l := by
  unfold otherSlots insertAt
  rw [List.filter_append, List.filter_cons_of_neg (by simp), ← List.filter_append,
    List.take_append_drop]
  exact otherSlots_of_notMem h

theorem slot_notMem_others (h : LookupOk t) (e : ScoreEntry) :
    e.slot ∉ (others t e).map ScoreEntry.slot :=
  (removeSlot_ok h e.userId e.characterId).2.1

/-- An insertion starts from the entries of the other slots. -/
theorem others_eq (h : LookupOk t) (e : ScoreEntry) : others t e = otherSlots e.slot t.sorted := by
  have hno := slot_notMem_others h e
  obtain ⟨-, -, ⟨-, hsame⟩ | ⟨l1, o, l2, hl, ho, hmoved⟩⟩ := removeSlot_ok h e.userId e.characterId
  · have hoth : others t e = t.sorted := by unfold others; rw [hsame]
    rw [hoth] at hno ⊢
    exact (otherSlots_of_notMem hno).symm
  · have hoth : others t e = l1 ++ l2 := hmoved
    rw [hoth] at hno ⊢
    rw [← otherSlots_of_notMem hno, hl]
    unfold otherSlots
    rw [List.filter_append, List.filter_append, List.filter_cons_of_neg (by simpa using ho)]

theorem others_length_le (h : LookupOk t) (e : ScoreEntry) :
    (others t e).length ≤ t.sorted.length := by
  rw [others_eq h]
  exact List.length_filter_le _ _

/-- The rank that `InsertScore` returns. -/
theorem insertEntry_rank (t : ScoreTableCache) (cfg : ScoreBoardConfig) (e : ScoreEntry) (now : ℕ) :
    (insertEntry t cfg e now).2 =
      if (others t e).length < cfg.rankLimit ∨ insertPos (others t e) e cfg.sortMode < cfg.rankLimit
      then insertPos (others t e) e cfg.sortMode + 1 else (cfg.rankLimit + 1) % 2 ^ 32 := by
  unfold insertEntry putEntry
  simp only [others_lastInsert]
  by_cases hfits : (others t e).length < cfg.rankLimit ∨
      insertPos (others t e) e cfg.sortMode < cfg.rankLimit
  · rw [if_neg (by simpa [Nat.lt_or_ge, imp_iff_not_or] using hfits), if_pos hfits]
  · rw [if_pos (by simpa [not_or] using hfits), if_neg hfits]

/-- The list after an insertion at `pos`, one of its entries perhaps dropped. -/
theorem insertAt_getElem? {l : List ScoreEntry} (hpos : i ≤ l.length) :
    (insertAt l i e)[i]? = some e := by
  unfold insertAt
  rw [List.getElem?_append_right (by rw [List.length_take]; omega), List.length_take,
    min_eq_left hpos, Nat.sub_self, List.getElem?_cons_zero]

theorem dropLast_insertAt {l : List ScoreEntry} (hpos : i < l.length) :
    (insertAt l i e).dropLast = insertAt l.dropLast i e := by
  have hne : l.drop i ≠ [] := by
    rw [Ne, List.drop_eq_nil_iff]; omega
  unfold insertAt
  rw [List.dropLast_append_of_ne_nil (by simp), List.dropLast_cons_of_ne_nil hne,
    List.dropLast_eq_take, List.dropLast_eq_take, List.take_take, List.drop_take, List.length_drop]
  congr 2
  · omega
  · congr 1; omega

/-- **An insertion tells the right rank and spares the other slots.** -/
theorem insertEntry_insertOk (h : LookupOk t) (hlen : t.sorted.length ≤ cfg.rankLimit)
    (hlimit : cfg.rankLimit < 2 ^ 32) (e : ScoreEntry) (now : ℕ) :
    InsertOk cfg e t.sorted (insertEntry t cfg e now).1.sorted (insertEntry t cfg e now).2 := by
  have hno := slot_notMem_others h e
  have hle := (others_length_le h e).trans hlen
  rw [insertEntry_rank, (insertEntry_ok h cfg e now).2]
  have hothers := (others_eq h e).symm
  generalize others t e = l at hno hle hothers ⊢
  have hpos : insertPos l e cfg.sortMode ≤ l.length := (List.takeWhile_prefix _).length_le
  generalize insertPos l e cfg.sortMode = pos at hpos ⊢
  by_cases hfits : l.length < cfg.rankLimit ∨ pos < cfg.rankLimit
  · rw [if_pos hfits, if_pos hfits]
    have hput : (insertAt l pos e).length = l.length + 1 := by
      rw [(insertAt_perm _ _ _).length_eq, List.length_cons]
    refine ⟨Or.inl (by omega), fun _ _ => ?_, fun hr => absurd hr (by omega), ?_⟩
    · -- the last one that goes stands behind the new one
      rw [Nat.add_sub_cancel]
      simp only
      split
      · rw [List.dropLast_eq_take, List.getElem?_take_of_lt (by omega)]
        exact insertAt_getElem? hpos
      · exact insertAt_getElem? hpos
    · rw [hothers]
      simp only
      split
      · have hlt : pos < l.length := by omega
        have hno' : e.slot ∉ l.dropLast.map ScoreEntry.slot := fun hmem =>
          hno ((List.dropLast_sublist l).map _ |>.subset hmem)
        rw [dropLast_insertAt hlt, otherSlots_insertAt hno']
        exact Or.inr ⟨by omega, rfl⟩
      · exact Or.inl (otherSlots_insertAt hno pos)
  · rw [if_neg hfits, if_neg hfits]
    refine ⟨Or.inr rfl, fun hr hr' => absurd hr' (by omega), fun _ => hno, Or.inl ?_⟩
    rw [hothers, otherSlots_of_notMem hno]

/-! ## Tables -/

/-- A lookup finds the position of the slot's entry. -/
theorem LookupOk.find_iff (h : LookupOk t) :
    t.lookup.find u c = some i ↔ ∃ e, t.sorted[i]? = some e ∧ e.slot = (u, c) := by
  constructor
  · intro hfind
    obtain ⟨l1, o, l2, hl, rfl, hslot⟩ := h.get hfind
    exact ⟨o, by rw [hl]; simp, hslot⟩
  · rintro ⟨e, he, hslot⟩
    obtain ⟨rfl, rfl⟩ := Prod.mk.inj hslot
    exact h.found i e he

theorem TableOk.lookupOk (h : TableOk cfg t) : LookupOk t where
  slots := h.slots
  found i e he := (h.lookup _ _ _).mpr ⟨e, he, rfl⟩
  missing u c hno := by
    cases hfind : t.lookup.find u c with
    | none => rfl
    | some i =>
      obtain ⟨e, he, hslot⟩ := (h.lookup _ _ _).mp hfind
      exact absurd (hslot ▸ List.mem_map_of_mem (List.mem_of_getElem? he)) hno

/-- An indexed table that is ranked and within its limit is right. -/
theorem LookupOk.tableOk (h : LookupOk t) (hranked : Ranked cfg.sortMode t.sorted)
    (hlen : t.sorted.length ≤ cfg.rankLimit) : TableOk cfg t :=
  ⟨h.slots, hranked, hlen, fun _ _ _ => h.find_iff⟩

/-- A table without entries is right. -/
theorem emptyTable_ok (cfg : ScoreBoardConfig) : TableOk cfg ⟨[], ∅, cfg, 0⟩ :=
  LookupOk.tableOk ⟨List.nodup_nil, nofun, fun _ _ _ => rfl⟩ List.Pairwise.nil (Nat.zero_le _)

/-- A table loaded in the order of the query is right. -/
theorem loadTable_ok {entries : List ScoreEntry} (hnd : (entries.map ScoreEntry.slot).Nodup)
    (hsorted : entries.Pairwise fun a b => orderedBy cfg.sortMode (asRow comId boardId a)
      (asRow comId boardId b)) (hlen : entries.length ≤ cfg.rankLimit) (now : ℕ) :
    TableOk cfg ⟨entries, reindexFrom entries 0 ∅, cfg, now⟩ := by
  refine (loaded_lookupOk hnd cfg now).tableOk ?_ hlen
  rw [ranked_iff comId boardId]
  unfold SortedBy
  rw [List.pairwise_map]
  exact hsorted.imp fun h => (orderedBy_iff _ _ _).mp h

/-- An insertion keeps the table right. -/
theorem TableOk.insert (h : TableOk cfg t) (e : ScoreEntry) (now : ℕ) :
    TableOk cfg (insertEntry t cfg e now).1 := by
  have hle := (others_length_le h.lookupOk e).trans h.length
  have htake : (insertEntry t cfg e now).1.sorted.map (asRow "" 0) = _ :=
    insertEntry_take h.lookupOk cfg e now hle
  have hothers : Ranked cfg.sortMode (others t e) := by
    rw [others_eq h.lookupOk]
    exact h.ranked.sublist List.filter_sublist
  refine (insertEntry_ok h.lookupOk cfg e now).1.tableOk ?_ ?_
  · rw [ranked_iff "" 0, htake]
    exact (insertBy_sorted ((ranked_iff "" 0 _ _).mp hothers) _).sublist (List.take_sublist _ _)
  · rw [← List.length_map (f := asRow "" 0), htake]
    exact List.length_take_le _ _

/-- Noting data keeps the table right. -/
theorem TableOk.setData (h : TableOk cfg t) (i dataId : ℕ) :
    TableOk cfg { t with sorted := t.sorted.modify i fun e => { e with dataId := some dataId } } :=
  (h.lookupOk.setData i dataId).tableOk (h.ranked.setData i dataId)
    ((List.length_modify ..).trans_le h.length)

/-! ## Runs -/

/-- The board's table is right, if there is one. -/
def BoardCached (comId : String) (boardId : ℕ) (cfg : ScoreBoardConfig) (m : ScoreCache) : Prop :=
  ∀ t, m.table comId boardId = some t → TableOk cfg t

theorem BoardCached.getOrCreate {m : ScoreCache} (h : BoardCached comId boardId cfg m) :
    TableOk cfg (m.getOrCreate comId boardId cfg) ∧
    (m.getOrCreate comId boardId cfg).sorted = cached m comId boardId := by
  unfold ScoreCache.getOrCreate cached
  cases ht : m.table comId boardId with
  | none => exact ⟨emptyTable_ok cfg, rfl⟩
  | some t => exact ⟨h t ht, rfl⟩

/-- **What a call makes of a table**: it stays, or is loaded, takes an entry, or learns data. -/
theorem step_table {m : ScoreCache} {call : ScoreCall}
    (ht : (m.step call).table comId boardId = some t) :
    m.table comId boardId = some t ∨
    (∃ cfg entries now, call = .loadTable comId boardId cfg entries now ∧
      t = ⟨entries, reindexFrom entries 0 ∅, cfg, now⟩) ∨
    (∃ cfg entry now, call = .insertScore comId boardId cfg entry now ∧
      t = (insertEntry (m.getOrCreate comId boardId cfg) cfg entry now).1) ∨
    ∃ t' i dataId, m.table comId boardId = some t' ∧
      t = { t' with sorted := t'.sorted.modify i fun e => { e with dataId := some dataId } } := by
  -- each of them stores the table of its own board
  have hstore : ∀ {comId' boardId' t'}, (m.store comId' boardId' t').table comId boardId = some t →
      m.table comId boardId = some t ∨ ((comId, boardId) = (comId', boardId') ∧ t = t') := by
    intro comId' boardId' t' h
    rw [table_store] at h
    split at h
    · exact Or.inr ⟨‹_›, (Option.some.inj h).symm⟩
    · exact Or.inl h
  cases call with
  | loadTable comId' boardId' cfg entries now =>
    rcases hstore ht with h | ⟨hb, rfl⟩
    · exact Or.inl h
    · obtain ⟨rfl, rfl⟩ := Prod.mk.inj hb
      exact Or.inr (Or.inl ⟨cfg, entries, now, rfl, rfl⟩)
  | insertScore comId' boardId' cfg entry now =>
    rcases hstore ht with h | ⟨hb, rfl⟩
    · exact Or.inl h
    · obtain ⟨rfl, rfl⟩ := Prod.mk.inj hb
      exact Or.inr (Or.inr (Or.inl ⟨cfg, entry, now, rfl, rfl⟩))
  | setGameData comId' boardId' userId charId dataId =>
    change (setGameData m comId' boardId' userId charId dataId).1.table comId boardId = some t at ht
    unfold setGameData at ht
    split at ht
    · exact Or.inl ht
    · rename_i t' ht'
      split at ht
      · exact Or.inl ht
      · rcases hstore ht with h | ⟨hb, rfl⟩
        · exact Or.inl h
        · obtain ⟨rfl, rfl⟩ := Prod.mk.inj hb
          exact Or.inr (Or.inr (Or.inr ⟨t', _, dataId, ht', rfl⟩))

/-- Every call keeps the board right in memory. -/
theorem BoardCached.step {m : ScoreCache} (h : BoardCached comId boardId cfg m) {call : ScoreCall}
    (hcall : call.Regular comId boardId cfg) : BoardCached comId boardId cfg (m.step call) := by
  intro t ht
  rcases step_table ht with ht | ⟨cfg', entries, now, rfl, rfl⟩ | ⟨cfg', entry, now, rfl, rfl⟩ |
    ⟨t', i, dataId, ht', rfl⟩
  · exact h t ht
  · obtain ⟨rfl, hnd, hsorted, hlen⟩ := hcall rfl
    exact loadTable_ok hnd hsorted hlen now
  · obtain rfl := hcall rfl
    exact h.getOrCreate.1.insert entry now
  · exact (h t' ht').setData i dataId

/-- **Cached boards are right**: along every run of loads, insertions and new data, and every
insertion does what it tells. Positions are `int`s: this is about tables of fewer than `2^31` entries. -/
theorem boards_ok (comId : String) (boardId : ℕ) (cfg : ScoreBoardConfig)
    (hlimit : cfg.rankLimit < 2 ^ 32) (calls : List ScoreCall)
    (hcalls : ∀ call ∈ calls, call.Regular comId boardId cfg) (n : ℕ) :
    (∀ t, (scoreCacheAfter calls n).table comId boardId = some t → TableOk cfg t) ∧
    ∀ e now, calls[n]? = some (.insertScore comId boardId cfg e now) →
      InsertOk cfg e (cached (scoreCacheAfter calls n) comId boardId)
        (cached (scoreCacheAfter calls (n + 1)) comId boardId)
        (insertScore (scoreCacheAfter calls n) comId boardId cfg e now).2 := by
  have hinv : BoardCached comId boardId cfg (scoreCacheAfter calls n) :=
    runAt_guard (G := fun _ call => call.Regular comId boardId cfg) nofun
      (fun _ _ h hcall => h.step hcall) (fun m hm => hcalls _ (List.getElem_mem hm)) n
  refine ⟨hinv, fun e now hcall => ?_⟩
  obtain ⟨hn, hget⟩ := List.getElem?_eq_some_iff.mp hcall
  obtain ⟨hok, hsorted⟩ := hinv.getOrCreate
  have hafter : cached (scoreCacheAfter calls (n + 1)) comId boardId =
      (insertEntry ((scoreCacheAfter calls n).getOrCreate comId boardId cfg) cfg e now).1.sorted := by
    unfold scoreCacheAfter
    rw [runAt_succ _ hn, hget]
    exact (cached_insertScore _ cfg e now comId comId boardId boardId).trans (if_pos rfl)
  rw [hafter, ← hsorted]
  exact insertEntry_insertOk hok.lookupOk hok.length hlimit e now

/-- A board of two ranks. -/
def twoRanks : ScoreBoardConfig := { rankLimit := 2 }

/-- A score of the user, as it stands in a board. -/
def entryOf (userId score : ℤ) (timestamp : ℕ) : ScoreEntry :=
  ⟨userId, 0, score, "", [], none, timestamp, "user"⟩

/-- A full board is loaded, and a third user scores. -/
def thirdScore : List ScoreCall :=
  [.loadTable "NPWR00001_00" 0 twoRanks [entryOf 1 10 1, entryOf 2 5 2] 3,
    .insertScore "NPWR00001_00" 0 twoRanks (entryOf 3 7 4) 4]

theorem thirdScore_regular : ∀ call ∈ thirdScore, call.Regular "NPWR00001_00" 0 twoRanks := by
  unfold thirdScore
  simp only [List.forall_mem_cons, List.not_mem_nil, false_imp_iff, implies_true, and_true]
  refine ⟨fun _ => ⟨rfl, by decide, ?_, by decide⟩, fun _ => rfl⟩
  simp [orderedBy_iff, rankKey, asRow, entryOf, twoRanks, Prod.Lex.toLex_le_toLex]

/-- The third user comes second, and the second one leaves the board. -/
theorem third_score_ranked :
    InsertOk twoRanks (entryOf 3 7 4) [entryOf 1 10 1, entryOf 2 5 2] [entryOf 1 10 1, entryOf 3 7 4] 2 :=
  (boards_ok "NPWR00001_00" 0 twoRanks (by decide) thirdScore thirdScore_regular 1).2 _ 4 rfl

end ShadNet
