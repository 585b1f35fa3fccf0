import ShadNet.Spec.ScoreQuery
import ShadNet.Proof.ScoreBoard

/-!
# Reading the boards

Clients read a board by ranks or by players. The first goes through the array of the entries, in
`int`s that may overflow; the second through the index.

* `range_ok_iff`: when a range of ranks is read right.
* `ids_ok`: what is read of given players is what stands at their ranks.
-/

namespace ShadNet

open Lib

variable {m : ScoreCache} {t : ScoreTableCache} {e : ScoreEntry} {comId : String}
  {boardId startRank numRanks now i : ℕ} {u c : ℤ} {withComment withGameInfo : Bool}

/-! ## Responses -/

/-- What is told of an entry with its rank. -/
def rankData (p : ScoreEntry × ℕ) : ScoreRankData := { toRankData p.1 0 with rank := p.2 }

/-- **The response tells of these players in turn**, of one who is not on the board a blank. -/
structure Tells (resp : GetScoreResponse) (players : List (Option (ScoreEntry × ℕ)))
    (withComment withGameInfo : Bool) : Prop where
  rankArray : resp.rankArray = players.map fun p => (p.map rankData).getD {}
  commentArray : resp.commentArray =
    if withComment then players.map fun p => (p.map fun p => p.1.comment).getD "" else []
  infoArray : resp.infoArray =
    if withGameInfo then players.map fun p => (p.map fun p => p.1.gameInfo).getD [] else []

theorem toRankData_eq {rank : ℕ} (h : rank < 2 ^ 32) (e : ScoreEntry) {index : ℤ}
    (hindex : index + 1 = rank) : toRankData e index = rankData (e, rank) := by
  unfold toRankData rankData
  simp only [hindex]
  congr 1
  omega

theorem Tells.nil (totalRecord lastSortDate : ℕ) (withComment withGameInfo : Bool) :
    Tells { totalRecord, lastSortDate } [] withComment withGameInfo := by
  constructor <;> simp

theorem Tells.blank {resp : GetScoreResponse} {players : List (Option (ScoreEntry × ℕ))}
    (h : Tells resp players withComment withGameInfo) :
    Tells (appendBlankEntry resp withComment withGameInfo) (players ++ [none]) withComment
      withGameInfo := by
  constructor
  · simp [appendBlankEntry, h.rankArray]
  · simp only [appendBlankEntry, h.commentArray]
    split <;> simp
  · simp only [appendBlankEntry, h.infoArray]
    split <;> simp

/-- A response that is given one entry more tells of one player more. -/
theorem Tells.entry {resp : GetScoreResponse} {players : List (Option (ScoreEntry × ℕ))}
    (h : Tells resp players withComment withGameInfo) {rank : ℕ} (hrank : rank < 2 ^ 32)
    (e : ScoreEntry) {index : ℤ} (hindex : index + 1 = rank) :
    Tells (appendEntry resp e index withComment withGameInfo) (players ++ [some (e, rank)])
      withComment withGameInfo := by
  constructor
  · simp [appendEntry, h.rankArray, toRankData_eq hrank e hindex]
  · simp only [appendEntry, h.commentArray]
    split <;> simp
  · simp only [appendEntry, h.infoArray]
    split <;> simp

/-! ## Ranges -/

/-- **The entries of a range of ranks**, as far as they exist, with their ranks. -/
def entriesOf (t : ScoreTableCache) (startRank numRanks : ℕ) : List (ScoreEntry × ℕ) :=
  (List.range numRanks).filterMap fun j =>
    (t.sorted[max 1 startRank - 1 + j]?).map fun e => (e, max 1 startRank + j)

/-- What `GetScoreRange` converts and computes, over the integers. -/
def rangeOperations (startRank numRanks size : ℕ) : List ℤ :=
  let startRank : ℤ := max 1 startRank
  [startRank, startRank - 1, numRanks, startRank - 1 + numRanks, size]

/-- **A range is read right**: the response has its entries and the size of the table, nothing is
read outside the table, and no `int` overflows. -/
structure RangeOk (t : ScoreTableCache) (startRank numRanks : ℕ) (resp : GetScoreResponse)
    (withComment withGameInfo : Bool) : Prop where
  tells : Tells resp ((entriesOf t startRank numRanks).map some) withComment withGameInfo
  totalRecord : resp.totalRecord = t.sorted.length
  reads : ∀ i ∈ scoreRange startRank numRanks t.sorted.length, 0 ≤ i ∧ i < t.sorted.length
  noOverflow : ∀ x ∈ rangeOperations startRank numRanks t.sorted.length, Fits32 x

/-- The ranks asked for and those of the table are below `2^31`. -/
structure RangeFits (t : ScoreTableCache) (startRank numRanks : ℕ) : Prop where
  start : max 1 startRank < 2 ^ 31
  stop : max 1 startRank - 1 + numRanks < 2 ^ 31
  size : t.sorted.length < 2 ^ 31

/-- The `int`s of a range request fit exactly if it is in range. -/
theorem rangeOperations_fit : (∀ x ∈ rangeOperations startRank numRanks t.sorted.length, Fits32 x) ↔
    RangeFits t startRank numRanks := by
  unfold rangeOperations Fits32
  simp only [List.forall_mem_cons, List.not_mem_nil, false_imp_iff, implies_true, and_true]
  constructor
  · rintro ⟨h1, -, -, h2, h3⟩
    exact ⟨by omega, by omega, by omega⟩
  · rintro ⟨h1, h2, h3⟩
    omega

/-- The positions of the range, where nothing overflows. -/
def positionsOf (startRank numRanks size : ℕ) : List ℕ :=
  (List.range (min (max 1 startRank - 1 + numRanks) size - (max 1 startRank - 1))).map
    (max 1 startRank - 1 + ·)

/-- The positions of a range that fits. -/
theorem scoreRange_eq (h : RangeFits t startRank numRanks) :
    scoreRange startRank numRanks t.sorted.length =
      (positionsOf startRank numRanks t.sorted.length).map fun i : ℕ => (i : ℤ) := by
  obtain ⟨hstart, hstop, hsize⟩ := h
  have hwrap : ∀ x : ℕ, x < 2 ^ 31 → wrap32 (x : ℤ) = x := fun x hx =>
    wrap32_of_lt (by omega) (by omega)
  unfold scoreRange positionsOf
  obtain ⟨first, hfirst⟩ : ∃ first, max 1 startRank = first + 1 := ⟨max 1 startRank - 1, by omega⟩
  have hif : (if startRank = 0 then 1 else startRank) = first + 1 := by split <;> omega
  rw [hfirst] at hstart hstop ⊢
  rw [Nat.add_sub_cancel] at hstop ⊢
  have hstart' : wrap32 ((first : ℤ) + 1) = first + 1 := by
    rw [← Nat.cast_add_one, hwrap _ hstart]
  have hstop' : wrap32 ((first : ℤ) + numRanks) = (first + numRanks : ℕ) := by
    rw [← Nat.cast_add, hwrap _ hstop]
  simp only [hif, Nat.cast_add_one, hstart', add_sub_cancel_right, hwrap first (by omega),
    hwrap numRanks (by omega), hstop', hwrap _ hsize]
  have hlen : (min ((first + numRanks : ℕ) : ℤ) t.sorted.length - first).toNat =
      min (first + numRanks) t.sorted.length - first := by omega
  rw [hlen, List.map_map]
  refine List.map_congr_left fun j _ => ?_
  rw [Function.comp_apply, Nat.cast_add]

theorem entryAt_natCast (t : ScoreTableCache) (i : ℕ) : t.entryAt i = t.sorted[i]? := by
  unfold ScoreTableCache.entryAt
  rw [if_neg (by omega), Int.toNat_natCast]

/-- The loop over the positions of a range. -/
theorem tells_range (hsize : t.sorted.length < 2 ^ 32) (positions : List ℕ) {resp : GetScoreResponse}
    {players : List (Option (ScoreEntry × ℕ))} (h : Tells resp players withComment withGameInfo) :
    Tells ((positions.map fun i : ℕ => (i : ℤ)).foldl (fun resp i => match t.entryAt i with
        | none => resp
        | some e => appendEntry resp e i withComment withGameInfo) resp)
      (players ++ (positions.filterMap fun i => (t.sorted[i]?).map fun e => (e, i + 1)).map some)
      withComment withGameInfo := by
  induction positions generalizing resp players with
  | nil => simpa using h
  | cons i positions ih =>
    rw [List.map_cons, List.foldl_cons, entryAt_natCast, List.filterMap_cons]
    cases hget : t.sorted[i]? with
    | none => exact ih h
    | some e =>
      have hi : i < t.sorted.length := (List.getElem?_eq_some_iff.mp hget).1
      have hrank : i + 1 < 2 ^ 32 := by omega
      have := ih (h.entry hrank e (Nat.cast_succ i).symm)
      simpa using this

theorem filterMap_range {β : Type*} {f : ℕ → Option β} {k n : ℕ} (hk : k ≤ n)
    (hf : ∀ j, k ≤ j → j < n → f j = none) :
    (List.range n).filterMap f = (List.range k).filterMap f := by
  obtain ⟨d, rfl⟩ := Nat.exists_eq_add_of_le hk
  have hrest : ((List.range d).map (k + ·)).filterMap f = [] := by
    rw [List.filterMap_eq_nil_iff]
    intro j hj
    obtain ⟨i, hi, rfl⟩ := List.mem_map.mp hj
    exact hf _ (Nat.le_add_right k i) (Nat.add_lt_add_left (List.mem_range.mp hi) k)
  rw [List.range_add, List.filterMap_append, hrest, List.append_nil]

/-- The entries at the positions are those of the ranks. -/
theorem positionsOf_entries (t : ScoreTableCache) (startRank numRanks : ℕ) :
    ((positionsOf startRank numRanks t.sorted.length).filterMap fun i =>
      (t.sorted[i]?).map fun e => (e, i + 1)) = entriesOf t startRank numRanks := by
  unfold positionsOf entriesOf
  rw [List.filterMap_map]
  have hf : ∀ j, ((fun i => (t.sorted[i]?).map fun e => (e, i + 1)) ∘ (max 1 startRank - 1 + ·)) j =
      (t.sorted[max 1 startRank - 1 + j]?).map fun e => (e, max 1 startRank + j) := by
    intro j
    rw [Function.comp_apply, show max 1 startRank - 1 + j + 1 = max 1 startRank + j by omega]
  rw [List.filterMap_congr fun j _ => hf j]
  refine (filterMap_range (by omega) fun j hj hj' => ?_).symm
  rw [Option.map_eq_none_iff, List.getElem?_eq_none_iff]
  omega

/-- **Ranges are read right** where nothing overflows. -/
theorem RangeFits.ok (h : RangeFits t startRank numRanks) (ht : m.table comId boardId = some t)
    (now : ℕ) (withComment withGameInfo : Bool) : RangeOk t startRank numRanks
      (getScoreRange m now comId boardId startRank numRanks withComment withGameInfo)
      withComment withGameInfo where
  tells := by
    unfold getScoreRange
    simp only [ht]
    rw [scoreRange_eq h, ← positionsOf_entries]
    exact tells_range (h.size.trans (by norm_num)) _ (Tells.nil _ _ _ _)
  totalRecord := by
    unfold getScoreRange
    simp only [ht]
    refine List.foldlRecOn
      (motive := fun resp : GetScoreResponse => resp.totalRecord = t.sorted.length) _ _ ?_ ?_
    · exact Nat.mod_eq_of_lt (h.size.trans (by norm_num))
    · intro resp hresp i _
      split
      · exact hresp
      · exact hresp
  reads i hi := by
    rw [scoreRange_eq h] at hi
    obtain ⟨j, hj, rfl⟩ := List.mem_map.mp hi
    obtain ⟨k, hk, rfl⟩ := List.mem_map.mp hj
    have := List.mem_range.mp hk
    omega
  noOverflow := rangeOperations_fit.mpr h

/-- **A range of ranks is read right** exactly when the ranks asked for and those of the table are
below `2^31`. -/
theorem range_ok_iff (ht : m.table comId boardId = some t) (now startRank numRanks : ℕ)
    (withComment withGameInfo : Bool) :
    RangeOk t startRank numRanks
        (getScoreRange m now comId boardId startRank numRanks withComment withGameInfo)
        withComment withGameInfo ↔ RangeFits t startRank numRanks :=
  ⟨fun h => rangeOperations_fit.mp h.noOverflow, fun h => h.ok ht now withComment withGameInfo⟩

/-- A cache with one board of one entry. -/
def oneEntry : ScoreCache := loadTable ∅ "NPWR00001_00" 0 {} [entryOf 1 10 1] 1

/-- The last rank of all, and ten ranks: the loop starts two entries in front of the table. -/
theorem last_rank_escapes : ¬ RangeOk ⟨[entryOf 1 10 1], reindexFrom [entryOf 1 10 1] 0 ∅, {}, 1⟩
    (2 ^ 32 - 1) 10 (getScoreRange oneEntry 2 "NPWR00001_00" 0 (2 ^ 32 - 1) 10 false false)
    false false := by
  intro h
  have hmem : (-2 : ℤ) ∈ scoreRange (2 ^ 32 - 1) 10 1 := by decide +kernel
  exact absurd (h.reads _ hmem).1 (by decide)

theorem first_rank_read : RangeOk ⟨[entryOf 1 10 1], reindexFrom [entryOf 1 10 1] 0 ∅, {}, 1⟩ 1 10
    (getScoreRange oneEntry 2 "NPWR00001_00" 0 1 10 false false) false false :=
  (range_ok_iff rfl 2 1 10 false false).mpr ⟨by decide, by decide, by decide⟩

/-! ## Players -/

/-- **Where a player's character stands**: the entry of the slot with its rank. -/
def standing (t : ScoreTableCache) (slot : ℤ × ℤ) : Option (ScoreEntry × ℕ) :=
  (t.sorted.zipIdx 1).find? fun p => p.1.slot = slot

/-- What is read of a player by his rank alone is his part of the response. -/
structure Agrees (resp one : GetScoreResponse) (j : ℕ) : Prop where
  rankArray : one.rankArray = resp.rankArray[j]?.toList
  commentArray : one.commentArray = resp.commentArray[j]?.toList
  infoArray : one.infoArray = resp.infoArray[j]?.toList

/-- **Players are read right**: there is an answer for each, blank for one who is not on the board,
and for the others the one that their rank gets. -/
structure IdsOk (m : ScoreCache) (comId : String) (boardId : ℕ) (ids : List (ℤ × ℤ))
    (resp : GetScoreResponse) (withComment withGameInfo : Bool) : Prop where
  tells : Tells resp (ids.map fun id => (m.table comId boardId).bind fun t => standing t id)
    withComment withGameInfo
  ranks : resp.rankArray.length = ids.length
  comments : resp.commentArray.length = if withComment then ids.length else 0
  infos : resp.infoArray.length = if withGameInfo then ids.length else 0
  agrees : ∀ t, m.table comId boardId = some t → ∀ (j : ℕ) (hj : j < ids.length),
    ∀ p, standing t ids[j] = some p → ∀ now,
      Agrees resp (getScoreRange m now comId boardId p.2 1 withComment withGameInfo) j

/-- What `GetScoreByIds` finds of a player is where he stands. -/
theorem LookupOk.standing (h : LookupOk t) (u c : ℤ) : ((t.lookup.find u c).bind fun i =>
    (t.sorted[i]?).map fun e => (e, i + 1)) = standing t (u, c) := by
  unfold ShadNet.standing
  cases hfind : t.lookup.find u c with
  | none =>
    symm
    rw [Option.bind_none, List.find?_eq_none]
    intro p hp heq
    have hmem := List.fst_mem_of_mem_zipIdx hp
    exact h.none_of hfind (of_decide_eq_true heq ▸ List.mem_map_of_mem hmem)
  | some i =>
    obtain ⟨e, he, hslot⟩ := h.find_iff.mp hfind
    rw [Option.bind_some, he, Option.map_some]
    symm
    rw [List.find?_eq_some_iff_getElem]
    obtain ⟨hi, rfl⟩ := List.getElem?_eq_some_iff.mp he
    refine ⟨decide_eq_true hslot, i, by simpa using hi, by simp [Nat.add_comm], fun j hj => ?_⟩
    -- an earlier entry has another slot
    have hj' : j < t.sorted.length := hj.trans hi
    simp only [List.getElem_zipIdx, Bool.not_eq_eq_eq_not, Bool.not_true, decide_eq_false_iff_not]
    intro heq
    have := h.find_iff.mpr ⟨_, List.getElem?_eq_getElem hj', heq⟩
    rw [hfind, Option.some.injEq] at this
    omega

/-- The loop over the players, each with the entry and the position that is found for him. -/
theorem tells_ids {found : ℤ × ℤ → Option (ScoreEntry × ℕ)}
    (hfound : ∀ id p, found id = some p → p.2 + 1 < 2 ^ 32) (ids : List (ℤ × ℤ))
    {resp : GetScoreResponse} {players : List (Option (ScoreEntry × ℕ))}
    (h : Tells resp players withComment withGameInfo) :
    Tells (ids.foldl (fun resp id => match found id with
        | none => appendBlankEntry resp withComment withGameInfo
        | some (e, i) => appendEntry resp e i withComment withGameInfo) resp)
      (players ++ ids.map fun id => (found id).map fun p => (p.1, p.2 + 1)) withComment
      withGameInfo := by
  induction ids generalizing resp players with
  | nil => simpa using h
  | cons id ids ih =>
    rw [List.foldl_cons, List.map_cons]
    cases hid : found id with
    | none => simpa using ih h.blank
    | some p =>
      have := ih (h.entry (hfound id p hid) p.1 (Nat.cast_succ p.2).symm)
      simpa using this

theorem Tells.agrees {resp one : GetScoreResponse} {players : List (Option (ScoreEntry × ℕ))}
    (h : Tells resp players withComment withGameInfo) {j : ℕ} {p : Option (ScoreEntry × ℕ)}
    (hj : players[j]? = some p) (hone : Tells one [p] withComment withGameInfo) :
    Agrees resp one j := by
  constructor
  · simp [h.rankArray, hone.rankArray, hj]
  · rw [h.commentArray, hone.commentArray]
    split <;> simp [hj]
  · rw [h.infoArray, hone.infoArray]
    split <;> simp [hj]

/-- The one entry of a rank. -/
theorem entriesOf_one {p : ScoreEntry × ℕ} {slot : ℤ × ℤ} (h : standing t slot = some p) :
    entriesOf t p.2 1 = [p] ∧ 1 ≤ p.2 ∧ p.2 ≤ t.sorted.length := by
  have hmem := List.mem_of_find?_eq_some h
  obtain ⟨e, rank⟩ := p
  obtain ⟨hle, hlt, hget⟩ := List.mem_zipIdx hmem
  refine ⟨?_, hle, by omega⟩
  have he : t.sorted[rank - 1]? = some e := by
    rw [hget]
    exact List.getElem?_eq_getElem _
  unfold entriesOf
  simp [max_eq_right hle, he]

/-- **Players are read right** where every table is indexed. -/
theorem getScoreByIds_ok
    (h : ∀ t, m.table comId boardId = some t → LookupOk t ∧ t.sorted.length < 2 ^ 31)
    (now : ℕ) (ids : List (ℤ × ℤ)) (withComment withGameInfo : Bool) :
    IdsOk m comId boardId ids (getScoreByIds m now comId boardId ids withComment withGameInfo)
      withComment withGameInfo := by
  have htells : Tells (getScoreByIds m now comId boardId ids withComment withGameInfo)
      (ids.map fun id => (m.table comId boardId).bind fun t => standing t id) withComment
      withGameInfo := by
    have hfound : ∀ id : ℤ × ℤ, ∀ p, ((m.table comId boardId).bind fun t =>
        (t.lookup.find id.1 id.2).bind fun i => (t.sorted[i]?).map fun e => (e, i)) = some p →
        p.2 + 1 < 2 ^ 32 := by
      intro id p hp
      obtain ⟨t, ht, hp⟩ := Option.bind_eq_some_iff.mp hp
      obtain ⟨i, -, hp⟩ := Option.bind_eq_some_iff.mp hp
      obtain ⟨e, he, rfl⟩ := Option.map_eq_some_iff.mp hp
      have hi := (List.getElem?_eq_some_iff.mp he).1
      have hsize := (h t ht).2
      simp only
      omega
    have := tells_ids hfound ids (Tells.nil
      (((m.table comId boardId).map fun t => t.sorted.length % 2 ^ 32).getD 0)
      (((m.table comId boardId).map (·.lastInsert)).getD now) withComment withGameInfo)
    rw [List.nil_append] at this
    refine (List.map_congr_left fun id _ => ?_) ▸ this
    cases ht : m.table comId boardId with
    | none => rfl
    | some t =>
      rw [Option.bind_some, Option.bind_some, ← (h t ht).1.standing, Option.map_bind]
      simp [Function.comp_def]
  refine ⟨htells, ?_, ?_, ?_, ?_⟩
  · rw [htells.rankArray, List.length_map, List.length_map]
  · rw [htells.commentArray]
    split <;> simp
  · rw [htells.infoArray]
    split <;> simp
  · intro t ht j hj p hp now
    obtain ⟨hone, hrank, hle⟩ := entriesOf_one hp
    have hsize := (h t ht).2
    have hfits : RangeFits t p.2 1 := ⟨by omega, by omega, hsize⟩
    have hrange := (hfits.ok ht now withComment withGameInfo).tells
    rw [hone, List.map_singleton] at hrange
    refine htells.agrees ?_ hrange
    simp [hj, ht, hp]

/-! ## Runs -/

/-- What is loaded has one entry a slot. -/
def ScoreCall.Distinct : ScoreCall → Prop
  | .loadTable _ _ _ entries _ => (entries.map ScoreEntry.slot).Nodup
  | _ => True

/-- All tables are indexed. -/
def TablesIndexed (m : ScoreCache) : Prop :=
  ∀ comId boardId t, m.table comId boardId = some t → LookupOk t

/-- Every call keeps the tables indexed. -/
theorem TablesIndexed.step (h : TablesIndexed m) {call : ScoreCall} (hcall : call.Distinct) :
    TablesIndexed (m.step call) := by
  intro comId boardId t ht
  rcases step_table ht with ht | ⟨cfg, entries, now, rfl, rfl⟩ | ⟨cfg, entry, now, rfl, rfl⟩ |
    ⟨t', i, dataId, ht', rfl⟩
  · exact h comId boardId t ht
  · exact loaded_lookupOk hcall cfg now
  · have hok : LookupOk (m.getOrCreate comId boardId cfg) := by
      unfold ScoreCache.getOrCreate
      cases ht : m.table comId boardId with
      | none => exact (emptyTable_ok cfg).lookupOk
      | some t => exact h comId boardId t ht
    exact (insertEntry_ok hok cfg entry now).1
  · exact (h comId boardId t' ht').setData i dataId

/-- **Both ways of reading a board agree**, along every run of loads, insertions and new data. -/
theorem ids_ok (calls : List ScoreCall) (hcalls : ∀ call ∈ calls, call.Distinct) (n : ℕ)
    (comId : String) (boardId : ℕ)
    (hsize : ∀ t, (scoreCacheAfter calls n).table comId boardId = some t → t.sorted.length < 2 ^ 31)
    (now : ℕ) (ids : List (ℤ × ℤ)) (withComment withGameInfo : Bool) :
    IdsOk (scoreCacheAfter calls n) comId boardId ids
      (getScoreByIds (scoreCacheAfter calls n) now comId boardId ids withComment withGameInfo)
      withComment withGameInfo := by
  have hinv : TablesIndexed (scoreCacheAfter calls n) :=
    runAt_guard (G := fun _ call => call.Distinct) nofun (fun _ _ h hcall => h.step hcall)
      (fun m hm => hcalls _ (List.getElem_mem hm)) n
  exact getScoreByIds_ok (fun t ht => ⟨hinv comId boardId t ht, hsize t ht⟩) now ids withComment
    withGameInfo

/-- The third user is on the board, and the second has left it. -/
theorem third_score_read : IdsOk (scoreCacheAfter thirdScore 2) "NPWR00001_00" 0 [(3, 0), (2, 0)]
    (getScoreByIds (scoreCacheAfter thirdScore 2) 5 "NPWR00001_00" 0 [(3, 0), (2, 0)] true true)
    true true := by
  refine ids_ok thirdScore ?_ 2 "NPWR00001_00" 0 ?_ 5 [(3, 0), (2, 0)] true true
  · unfold thirdScore
    simp only [List.forall_mem_cons, List.not_mem_nil, false_imp_iff, implies_true, and_true]
    have hslots : ([entryOf 1 10 1, entryOf 2 5 2].map ScoreEntry.slot).Nodup := by decide
    exact ⟨hslots, trivial⟩
  · intro t ht
    obtain rfl := Option.some.inj ht
    decide

end ShadNet
