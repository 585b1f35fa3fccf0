import Mathlib.Data.Set.Card
import Mathlib.Order.Interval.Finset.Nat
import ShadNet.Lib.Pages
import ShadNet.Proof.RoomJoin

/-!
# Pages of a search

* `rooms_numbered`: a room knows its id.
* `selected_ids`: a search finds each room that it selects once.
* `searchIndices_eq`: the 32-bit loop over the matches reads a window of them.
* `search_pages_iff`: the pages of a search are a partition of the rooms that it selects, exactly when
  these are fewer than 2^32.
* `uncounted_world`: with as many rooms in it, a world is said to have none.
-/

namespace ShadNet

open Lib

variable {m : MatchingSharedState} {key : RoomKey} {room room' : Room} {sv : Services}

/-! ## Rooms and their ids -/

/-- Every operation keeps the id of a room. -/
theorem Room.Step.roomId {op : RoomOp} (h : room.Step op room') : room'.roomId = room.roomId := by
  cases h with
  | idle => rfl
  | join =>
    unfold Room.join
    simp only
    split <;> rfl
  | leave =>
    obtain ⟨_, _, _, heq⟩ := afterLeave_eq (room.dropMember _) _ _
    rw [heq]
    rfl
  | kick =>
    unfold Room.kick
    simp only
    split <;> rfl
  | setInternal =>
    rw [setDataInternal_eq]
    split <;> rfl
  | setExternal => rw [setDataExternal_eq]

/-- **Every room has the id** under which it is kept. -/
def RoomsNumbered (m : MatchingSharedState) : Prop :=
  ∀ key room, m.rooms.get? key = some room → room.roomId = key.2

/-- Rooms have their ids along every run. -/
theorem rooms_numbered (sv : Services) (db : Database) (titleGroups : Table String String)
    (events : List Event) (n : ℕ) :
    RoomsNumbered (configuredServerAfter sv db titleGroups events n).shared.matching := by
  refine runAt_inv (P := fun s : Server => RoomsNumbered s.shared.matching) ?_ ?_ events n
  · intro key room hroom
    cases hroom
  · intro server e h key room' hroom'
    rcases step_room_cases hroom' with
      ⟨room, hroom, rfl | ⟨op, -, hstep⟩⟩ | ⟨info, env, own, req, -, rfl⟩
    · exact h key _ hroom
    · rw [hstep.roomId]
      exact h key room hroom
    · exact createdRoom_takesOver.roomId

/-! ## What a search selects -/

/-- The ids that a search selects: candidates whose rooms pass the filters. -/
def SearchRoomRequest.selected (req : SearchRoomRequest) (m : MatchingSharedState)
    (order : Order RoomKey) (k : String) : Set ℕ :=
  {rid | rid ∈ searchCandidates m order k req ∧
    ∃ room, m.rooms.get? (k, rid) = some room ∧ roomMatchesFilters room req = true}

variable {order : Order RoomKey} {k : String} {req : SearchRoomRequest}

/-- No candidate of a search comes twice. -/
theorem IndexInv.candidates_nodup (h : IndexInv m) : (searchCandidates m order k req).Nodup := by
  unfold searchCandidates
  split
  · exact h.world.nodup _
  · split
    · exact h.lobby.nodup _
    · -- all rooms under one key have different ids
      refine List.Nodup.map_on ?_ ((Table.nodup_inOrder order m.rooms).filter _)
      rintro ⟨key, room⟩ he ⟨key', room'⟩ he' heq
      have hroom := Table.mem_inOrder.mp (List.mem_filter.mp he).1
      have hroom' := Table.mem_inOrder.mp (List.mem_filter.mp he').1
      obtain rfl := h.unique _ _ _ _ hroom hroom' heq
      rw [Option.some.inj (hroom.symm.trans hroom')]

theorem mem_searchMatches : room ∈ searchMatches m order k req ↔
    ∃ rid ∈ searchCandidates m order k req, m.rooms.get? (k, rid) = some room ∧
      roomMatchesFilters room req = true := by
  unfold searchMatches
  rw [List.mem_filter, List.mem_filterMap]
  constructor
  · rintro ⟨⟨rid, hrid, hroom⟩, hmatch⟩
    exact ⟨rid, hrid, hroom, hmatch⟩
  · rintro ⟨rid, hrid, hroom, hmatch⟩
    exact ⟨⟨rid, hrid, hroom⟩, hmatch⟩

/-- **Each room that is selected is found once.** -/
theorem selected_ids (h : IndexInv m) (hnum : RoomsNumbered m) :
    ((searchMatches m order k req).map (·.roomId)).Nodup ∧
      ∀ rid, rid ∈ (searchMatches m order k req).map (·.roomId) ↔ rid ∈ req.selected m order k := by
  constructor
  · -- the ids are among the candidates, in their order
    have hids : (((searchCandidates m order k req).filterMap fun rid =>
        m.rooms.get? (k, rid)).map (·.roomId)).Sublist (searchCandidates m order k req) :=
      ids_sublist (fun rid room hroom => hnum _ _ hroom) _
    exact ((List.filter_sublist.map _).trans hids).nodup h.candidates_nodup
  · intro rid
    rw [List.mem_map]
    constructor
    · rintro ⟨room, hmem, rfl⟩
      obtain ⟨rid, hrid, hroom, hmatch⟩ := mem_searchMatches.mp hmem
      rw [hnum _ _ hroom]
      exact ⟨hrid, room, hroom, hmatch⟩
    · rintro ⟨hrid, room, hroom, hmatch⟩
      exact ⟨room, mem_searchMatches.mpr ⟨rid, hrid, hroom, hmatch⟩, hnum _ _ hroom⟩

/-! ## The loop over the matches -/

/-- **The loop reads a window** of the matches: the counter does not wrap before the loop ends. -/
theorem searchIndices_eq (size : UInt32) (n : ℕ) (i : UInt32) :
    (searchIndices size n i).map UInt32.toNat =
      List.range' i.toNat (min n (size.toNat - i.toNat)) := by
  induction n generalizing i with
  | zero => simp [searchIndices]
  | succ n ih =>
    unfold searchIndices
    split
    · rename_i hlt
      rw [UInt32.lt_iff_toNat_lt] at hlt
      have hsize := size.toNat_lt
      have hnext : (i + 1).toNat = i.toNat + 1 := by
        rw [UInt32.toNat_add, UInt32.toNat_one]
        exact Nat.mod_eq_of_lt (by omega)
      have hcount : min (n + 1) (size.toNat - i.toNat) =
          min n (size.toNat - (i.toNat + 1)) + 1 := by omega
      rw [List.map_cons, ih, hnext, hcount, List.range'_succ]
    · rename_i hge
      rw [UInt32.lt_iff_toNat_lt] at hge
      have hcount : min (n + 1) (size.toNat - i.toNat) = 0 := by omega
      rw [hcount]
      rfl

/-- A page holds 20 rooms at most. -/
theorem rangeMax_le (req : SearchRoomRequest) : req.rangeMax.toNat ≤ 20 := by
  unfold SearchRoomRequest.rangeMax
  split
  · decide
  · rename_i h
    have hle : ¬ (20 : UInt32) < req.rangeFilterMax := fun hlt => h (Or.inr hlt)
    rw [UInt32.lt_iff_toNat_lt] at hle
    have htwenty : (20 : UInt32).toNat = 20 := rfl
    omega

/-- The indices that are read are below the size, for every start and maximum. -/
theorem indices_lt (req : SearchRoomRequest) (rooms : List Room) :
    (req.indices rooms).length ≤ 20 ∧ ∀ i ∈ req.indices rooms, i.toNat < rooms.length := by
  have hindices := searchIndices_eq (UInt32.ofNat rooms.length) req.rangeMax.toNat (req.rangeStart - 1)
  have hsize : (UInt32.ofNat rooms.length).toNat ≤ rooms.length := by
    rw [UInt32.toNat_ofNat']
    exact Nat.mod_le _ _
  have hmax := rangeMax_le req
  unfold SearchRoomRequest.indices
  constructor
  · have hlength := congrArg List.length hindices
    rw [List.length_map, List.length_range'] at hlength
    omega
  · intro i hi
    have hmem := List.mem_map_of_mem (f := UInt32.toNat) hi
    rw [hindices, List.mem_range'_1] at hmem
    omega

/-- The request for page `k`, from 0 on, with `size` rooms a page. -/
def SearchRoomRequest.page (req : SearchRoomRequest) (size k : ℕ) : SearchRoomRequest :=
  { req with rangeFilterStart := UInt32.ofNat (1 + k * size), rangeFilterMax := UInt32.ofNat size }

theorem page_rangeStart {size k : ℕ} (hk : 1 + k * size < 2 ^ 32) :
    ((req.page size k).rangeStart - 1).toNat = k * size := by
  have hnat : (UInt32.ofNat (1 + k * size)).toNat = 1 + k * size := UInt32.toNat_ofNat_of_lt' hk
  have hle : (1 : UInt32) ≤ UInt32.ofNat (1 + k * size) := by
    rw [UInt32.le_iff_toNat_le, hnat, UInt32.toNat_one]
    omega
  have hge : ¬ UInt32.ofNat (1 + k * size) < 1 := UInt32.not_lt.mpr hle
  unfold SearchRoomRequest.rangeStart SearchRoomRequest.page
  simp only
  rw [if_neg hge, UInt32.toNat_sub_of_le _ _ hle, hnat, UInt32.toNat_one]
  omega

/-- The pages of a size up to 20 are of that size. -/
theorem page_rangeMax {size k : ℕ} (hsize : 1 ≤ size) (hmax : size ≤ 20) :
    (req.page size k).rangeMax.toNat = size := by
  have hlt : size < UInt32.size := lt_of_le_of_lt hmax (by decide)
  have hnat : (UInt32.ofNat size).toNat = size := UInt32.toNat_ofNat_of_lt' hlt
  have hfit : ¬ (UInt32.ofNat size = 0 ∨ 20 < UInt32.ofNat size) := by
    have hzero : (0 : UInt32).toNat = 0 := rfl
    have htwenty : (20 : UInt32).toNat = 20 := rfl
    rw [← UInt32.toNat_inj, UInt32.lt_iff_toNat_lt, hnat]
    omega
  unfold SearchRoomRequest.rangeMax SearchRoomRequest.page
  simp only
  rw [if_neg hfit, hnat]

/-- **The rooms of a page**, as long as the matches can be counted with 32 bits. -/
theorem page_found {rooms : List Room} {size k : ℕ} (hrooms : rooms.length < 2 ^ 32) (hsize : 1 ≤ size)
    (hmax : size ≤ 20) (hk : 1 + k * size < 2 ^ 32) {β : Type} (f : Room → β) :
    ((req.page size k).indices rooms).filterMap (fun i => (rooms[i.toNat]?).map f) =
      (page rooms size k).map f := by
  have hlength : (UInt32.ofNat rooms.length).toNat = rooms.length := UInt32.toNat_ofNat_of_lt' hrooms
  have hindices : ((req.page size k).indices rooms).map UInt32.toNat =
      List.range' (k * size) (min size (rooms.length - k * size)) := by
    unfold SearchRoomRequest.indices
    rw [searchIndices_eq, page_rangeStart hk, page_rangeMax hsize hmax, hlength]
  have hread : ((req.page size k).indices rooms).filterMap (fun i => (rooms[i.toNat]?).map f) =
      (((req.page size k).indices rooms).map UInt32.toNat).filterMap
        (fun j => (rooms[j]?).map f) := by
    rw [List.filterMap_map]
    rfl
  have hmap : ∀ js : List ℕ, js.filterMap (fun j => (rooms[j]?).map f) =
      (js.filterMap (fun j => rooms[j]?)).map f := fun js => List.map_filterMap.symm
  rw [hread, hindices, hmap, filterMap_getElem?]
  unfold page
  congr 1
  -- the window ends where the list does
  rw [← List.length_drop]
  exact List.take_eq_take_min.symm

/-! ## The pages -/

/-- **What the pages of a search are**: `reply k` answers the request for page `k`. A start has 32
bits. -/
structure PagesOk (m : MatchingSharedState) (order : Order RoomKey) (own : MatchingSessionState)
    (req : SearchRoomRequest) (size : ℕ) (reply : ℕ → SearchRoomReply) : Prop where
  answer : ∀ k, cmdSearchRoom order ⟨m, own⟩ (some (req.page size k)) = .ok (reply k)
  /-- every room that is selected is on one page -/
  once : ∀ rid ∈ req.selected m order own.matchingKey,
    ∃ k, 1 + k * size < 2 ^ 32 ∧ rid ∈ (reply k).rooms.map (·.roomId) ∧
      ∀ k', 1 + k' * size < 2 ^ 32 → rid ∈ (reply k').rooms.map (·.roomId) → k' = k
  nodup : ∀ k, 1 + k * size < 2 ^ 32 → ((reply k).rooms.map (·.roomId)).Nodup
  /-- and nothing else is -/
  only : ∀ k, 1 + k * size < 2 ^ 32 → ∀ data ∈ (reply k).rooms,
    data.roomId ∈ req.selected m order own.matchingKey ∧
      ∃ room, m.rooms.get? (own.matchingKey, data.roomId) = some room ∧
        data = buildRoomDataExternal room (req.attrIds.map (· % 2 ^ 16))
  total : ∀ k, 1 + k * size < 2 ^ 32 →
    (reply k).rangeTotal = (req.selected m order own.matchingKey).ncard
  result : ∀ k, 1 + k * size < 2 ^ 32 →
    (reply k).rangeResult = (reply k).rooms.length ∧ (reply k).rooms.length ≤ size
  past : ∀ k, 1 + k * size < 2 ^ 32 →
    (req.selected m order own.matchingKey).ncard ≤ k * size → (reply k).rooms = []

/-- The pages of every size, and a bound for every start and maximum. -/
structure SearchOk (m : MatchingSharedState) (order : Order RoomKey) (own : MatchingSessionState)
    (req : SearchRoomRequest) : Prop where
  pages : ∀ size, 1 ≤ size → size ≤ 20 → ∃ reply, PagesOk m order own req size reply
  bounded : ∀ start max, ∃ reply, cmdSearchRoom order ⟨m, own⟩
      (some { req with rangeFilterStart := start, rangeFilterMax := max }) = .ok reply ∧
    reply.rooms.length ≤ 20 ∧
    ∀ i ∈ ({ req with rangeFilterStart := start, rangeFilterMax := max } : SearchRoomRequest).indices
      (searchMatches m order own.matchingKey req),
      i.toNat < (searchMatches m order own.matchingKey req).length

variable {own : MatchingSessionState}

theorem selected_eq (h : IndexInv m) (hnum : RoomsNumbered m) : req.selected m order k =
    (((searchMatches m order k req).map (·.roomId)).toFinset : Set ℕ) := by
  ext rid
  rw [Finset.mem_coe, List.mem_toFinset, (selected_ids h hnum).2]

/-- The rooms that are selected, counted. -/
theorem ncard_selected (h : IndexInv m) (hnum : RoomsNumbered m) :
    (req.selected m order k).ncard = (searchMatches m order k req).length := by
  rw [selected_eq h hnum, Set.ncard_coe_finset, List.toFinset_card_of_nodup (selected_ids h hnum).1,
    List.length_map]

/-- The answer to the request for a page. -/
def pageReply (m : MatchingSharedState) (order : Order RoomKey) (own : MatchingSessionState)
    (req : SearchRoomRequest) (size k : ℕ) : SearchRoomReply :=
  let rooms := searchMatches m order own.matchingKey req
  let found := ((req.page size k).indices rooms).filterMap fun i =>
    (rooms[i.toNat]?).map fun room => buildRoomDataExternal room (req.attrIds.map (· % 2 ^ 16))
  ⟨found, (req.page size k).rangeStart.toNat, rooms.length % 2 ^ 32, found.length⟩

theorem cmdSearchRoom_page {size k : ℕ} :
    cmdSearchRoom order ⟨m, own⟩ (some (req.page size k)) = .ok (pageReply m order own req size k) := rfl

/-- The pages of a search have all rooms that match, each once. -/
theorem pages_ok (h : IndexInv m) (hnum : RoomsNumbered m)
    (hcount : (searchMatches m order own.matchingKey req).length < 2 ^ 32) {size : ℕ}
    (hsize : 1 ≤ size) (hmax : size ≤ 20) :
    PagesOk m order own req size (pageReply m order own req size) := by
  have hnodup : ((searchMatches m order own.matchingKey req).map (·.roomId)).Nodup :=
    (selected_ids h hnum).1
  have hmem : ∀ rid, rid ∈ (searchMatches m order own.matchingKey req).map (·.roomId) ↔
      rid ∈ req.selected m order own.matchingKey := (selected_ids h hnum).2
  have hncard : (req.selected m order own.matchingKey).ncard =
      (searchMatches m order own.matchingKey req).length := ncard_selected h hnum
  have hrooms : ∀ k, 1 + k * size < 2 ^ 32 → (pageReply m order own req size k).rooms =
      (page (searchMatches m order own.matchingKey req) size k).map fun room =>
        buildRoomDataExternal room (req.attrIds.map (· % 2 ^ 16)) :=
    fun k hk => page_found hcount hsize hmax hk _
  have hids : ∀ k, 1 + k * size < 2 ^ 32 → (pageReply m order own req size k).rooms.map (·.roomId) =
      page ((searchMatches m order own.matchingKey req).map (·.roomId)) size k := by
    intro k hk
    rw [hrooms k hk, List.map_map, page_map]
    rfl
  refine ⟨fun k => cmdSearchRoom_page, ?_, ?_, ?_, ?_, ?_, ?_⟩
  · intro rid hrid
    obtain ⟨k, hk, hlt, honly⟩ := existsUnique_page (m := size) hnodup (by omega) ((hmem rid).mpr hrid)
    rw [List.length_map] at hlt
    refine ⟨k, by omega, ?_, ?_⟩
    · rwa [hids k (by omega)]
    · intro k' hk' hpage
      rw [hids k' hk'] at hpage
      exact honly k' hpage
  · intro k hk
    rw [hids k hk]
    exact (page_sublist _ _ _).nodup hnodup
  · intro k hk data hdata
    rw [hrooms k hk] at hdata
    obtain ⟨room, hpage, rfl⟩ := List.mem_map.mp hdata
    have hmatch := (page_sublist _ _ _).subset hpage
    obtain ⟨rid, -, hroom, -⟩ := mem_searchMatches.mp hmatch
    have hrid : room.roomId = rid := hnum _ _ hroom
    refine ⟨(hmem _).mp (List.mem_map_of_mem hmatch), room, ?_, rfl⟩
    change m.rooms.get? (own.matchingKey, room.roomId) = some room
    rwa [hrid]
  · intro k hk
    rw [hncard]
    exact Nat.mod_eq_of_lt hcount
  · intro k hk
    refine ⟨rfl, ?_⟩
    rw [hrooms k hk, List.length_map]
    exact page_length_le _ _ _
  · intro k hk hpast
    rw [hncard] at hpast
    rw [hrooms k hk, page_eq_nil hpast]
    rfl

theorem IndexInv.pages_iff (h : IndexInv m) (hnum : RoomsNumbered m) :
    SearchOk m order own req ↔ (req.selected m order own.matchingKey).ncard < 2 ^ 32 := by
  have hncard : (req.selected m order own.matchingKey).ncard =
      (searchMatches m order own.matchingKey req).length := ncard_selected h hnum
  constructor
  · intro hok
    -- the first page tells the number of rooms with 32 bits
    obtain ⟨reply, hpages⟩ := hok.pages 1 le_rfl (by omega)
    have htotal := hpages.total 0 (by decide)
    have hreply : reply 0 = pageReply m order own req 1 0 :=
      Except.ok.inj ((hpages.answer 0).symm.trans cmdSearchRoom_page)
    rw [← htotal, hreply]
    exact Nat.mod_lt _ (by decide)
  · intro hlt
    refine ⟨fun size hsize hmax => ⟨_, pages_ok h hnum (hncard ▸ hlt) hsize hmax⟩, ?_⟩
    intro start max
    obtain ⟨hlength, hbound⟩ := indices_lt { req with rangeFilterStart := start, rangeFilterMax := max }
      (searchMatches m order own.matchingKey req)
    exact ⟨_, rfl, (List.length_filterMap_le _ _).trans hlength, hbound⟩

/-- **Pages of a search**: in every reachable state, for every order of the rooms, caller and request,
the pages of each size are a partition of the rooms that are selected, and are told their number,
exactly when fewer than 2^32 are. -/
theorem search_pages_iff (sv : Services) (db : Database) (titleGroups : Table String String)
    (events : List Event) (n : ℕ) (order : Order RoomKey) (own : MatchingSessionState)
    (req : SearchRoomRequest) :
    let m := (configuredServerAfter sv db titleGroups events n).shared.matching
    SearchOk m order own req ↔ (req.selected m order own.matchingKey).ncard < 2 ^ 32 :=
  (server_indexInv sv db titleGroups events n).pages_iff (rooms_numbered sv db titleGroups events n)

/-! ## More rooms than 32 bits can count -/

/-- Alice logs in and creates `n` rooms. -/
def roomMaker (n : ℕ) : List Event :=
  [.connect, .request 0 (.login (some ⟨"alice", "alice", "", "", "", false⟩)) .plain] ++
    List.replicate n (.request 0 (.createRoom (some { maxSlots := 4 })) .plain)

/-- The server after `n` rooms were made on its first connection. -/
structure MadeRooms (n : ℕ) (s : Server) : Prop where
  conn : ∃ session, s.conns.get? 0 = some session ∧ session.authenticated = true ∧
    session.matching.matchingKey = "" ∧ session.matching.worldId = 1
  next : s.shared.matching.nextRoomId = n + 1
  rooms : ∀ i, 1 ≤ i → i ≤ n → ∃ room, s.shared.matching.rooms.get? ("", i) = some room ∧
    room.flagAttr = 0 ∧ room.worldId = 1

theorem MadeRooms.create {n : ℕ} {s : Server} (h : MadeRooms n s) :
    MadeRooms (n + 1) (s.step .plain (.request 0 (.createRoom (some { maxSlots := 4 })) .plain)) := by
  obtain ⟨session, hc, hauth, hkey, hworld⟩ := h.conn
  have hstep : s.step .plain (.request 0 (.createRoom (some { maxSlots := 4 })) .plain) = _ :=
    step_onRooms hc hauth rfl
  -- a room is in the world of its maker, who stays there
  have hmade : ∀ env own rid, (createdRoom session.info env own rid { maxSlots := 4 }).1.worldId =
      own.worldId := fun _ _ _ => rfl
  have hrooms : OpAt s.shared.matching (cmdCreateRoom session.info Env.plain.matching
    ⟨s.shared.matching, session.matching⟩ (some { maxSlots := 4 })).1.shared _ _ :=
      cmdCreateRoom_op { maxSlots := 4 }
  rw [hstep]
  refine ⟨⟨_, Table.get?_set_self, hauth, hkey, ?_⟩, ?_, ?_⟩
  · simp only [cmdCreateRoom, enterRoom, hmade, hworld]
    decide
  · simp only [cmdCreateRoom, insertRoom_eq, h.next]
  · intro i hi hin
    simp only
    rw [hrooms ("", i)]
    split
    · exact ⟨_, rfl, createdRoom_takesOver.flags, (hmade _ _ _).trans hworld⟩
    · rename_i hne
      refine h.rooms i hi ?_
      by_contra hlast
      obtain rfl : i = n + 1 := by omega
      rw [hkey, h.next] at hne
      exact hne rfl

theorem madeRooms (n : ℕ) : MadeRooms n
    (configuredServerAfter .plain aliceAndBob ∅ (roomMaker n) (n + 2)) := by
  induction n with
  | zero => exact ⟨⟨_, rfl, rfl, rfl, rfl⟩, rfl, fun i hi hin => by omega⟩
  | succ n ih =>
    have hlength : (roomMaker n).length = n + 2 := by
      simp only [roomMaker, List.length_append, List.length_replicate, List.length_cons,
        List.length_nil]
      omega
    have hmaker : roomMaker (n + 1) =
        roomMaker n ++ [.request 0 (.createRoom (some { maxSlots := 4 })) .plain] := by
      simp only [roomMaker, List.replicate_succ', List.append_assoc]
    unfold configuredServerAfter runAt at ih ⊢
    rw [List.take_of_length_le (by omega)] at ih
    rw [hmaker, List.take_of_length_le (by simp [hlength]), List.foldl_append]
    exact ih.create

/-- With 2^32 rooms the pages are empty and the total is 0. -/
theorem uncounted_rooms :
    ¬ ∀ sv db titleGroups events n order own req,
      SearchOk (configuredServerAfter sv db titleGroups events n).shared.matching order own req := by
  intro h
  obtain ⟨n, hn⟩ : ∃ n, n = 2 ^ 32 := ⟨_, rfl⟩
  have hmade := madeRooms n
  have hindex := server_indexInv .plain aliceAndBob ∅ (roomMaker n) (n + 2)
  have hnum := rooms_numbered .plain aliceAndBob ∅ (roomMaker n) (n + 2)
  specialize h .plain aliceAndBob ∅ (roomMaker n) (n + 2) .listed {} {}
  generalize configuredServerAfter .plain aliceAndBob ∅ (roomMaker n) (n + 2) = s at *
  -- the search without filters selects all of them
  have hall : (Finset.Icc 1 n : Set ℕ) ⊆
      ({} : SearchRoomRequest).selected s.shared.matching .listed "" := by
    intro i hi
    obtain ⟨hi, hin⟩ := Finset.mem_Icc.mp (Finset.mem_coe.mp hi)
    obtain ⟨room, hroom, hflags, -⟩ := hmade.rooms i hi hin
    refine ⟨List.mem_map.mpr ⟨(("", i), room), List.mem_filter.mpr
      ⟨Table.mem_inOrder.mpr hroom, rfl⟩, rfl⟩, room, hroom, ?_⟩
    simp [roomMatchesFilters, hflags]
  have hle := Set.ncard_le_ncard hall (by rw [selected_eq hindex hnum]; exact Finset.finite_toSet _)
  rw [Set.ncard_coe_finset, Nat.card_Icc] at hle
  have hlt := (hindex.pages_iff hnum).mp h
  have hkey : ({} : MatchingSessionState).matchingKey = "" := rfl
  rw [hkey] at hlt
  omega

/-- A world can be said to have fewer rooms than stand in it. -/
theorem uncounted_world :
    ¬ ∀ sv db titleGroups events n configs order own req worlds,
      cmdGetWorldInfoList configs order
          ⟨(configuredServerAfter sv db titleGroups events n).shared.matching, own⟩ req = .ok worlds →
        ∀ w ∈ worlds, w.roomsNum = (roomsOfWorld
          (configuredServerAfter sv db titleGroups events n).shared.matching own.matchingKey
            w.worldId).length := by
  intro h
  obtain ⟨n, hn⟩ : ∃ n, n = 2 ^ 32 := ⟨_, rfl⟩
  have hmade := madeRooms n
  have hindex := server_indexInv .plain aliceAndBob ∅ (roomMaker n) (n + 2)
  specialize h .plain aliceAndBob ∅ (roomMaker n) (n + 2)
    ((∅ : Table String (List WorldConfig)).set "" [⟨1, 1, 0, 0, by decide⟩]) .listed {} (some 0) _ rfl
    _ List.mem_cons_self
  generalize configuredServerAfter .plain aliceAndBob ∅ (roomMaker n) (n + 2) = s at *
  -- all of them are in that world
  have hmany : n ≤ (roomsOfWorld s.shared.matching "" 1).length := by
    have hsubset : (List.range n).map (fun i => (("", i + 1) : RoomKey)) ⊆
        ((s.shared.matching.rooms.inOrder .listed).filter fun e =>
          e.1.1 = "" ∧ e.2.worldId = 1).map Prod.fst := by
      intro key hkey
      obtain ⟨i, hi, rfl⟩ := List.mem_map.mp hkey
      obtain ⟨room, hroom, -, hworld⟩ := hmade.rooms (i + 1) (by omega) (List.mem_range.mp hi)
      exact List.mem_map.mpr ⟨(("", i + 1), room), List.mem_filter.mpr
        ⟨Table.mem_inOrder.mpr hroom, by simp [hworld]⟩, rfl⟩
    have hnodup : ((List.range n).map fun i => (("", i + 1) : RoomKey)).Nodup :=
      List.nodup_range.map fun i j hij => by simpa using hij
    have hle := (hnodup.subperm hsubset).length_le
    simpa [roomsOfWorld] using hle
  have hcount : (matchingWorld s.shared.matching "" 1 0 0).roomsNum =
      (roomsOfWorld s.shared.matching "" 1).length := h
  have hworld : (1 : ℕ) ≠ 0 := by decide
  simp only [matchingWorld, hindex.count_world "" hworld] at hcount
  omega

end ShadNet
