import ShadNet.Proof.Matching
import ShadNet.Spec.RoomSearch

/-!
# Rooms by world and by lobby

* `RoomsStep`: what an event does to the rooms and to the lists.
* `IndexInv`: the lists name the rooms of their world or lobby, each once.
* `indices_ok`: so they do in every reachable state, and the counts of `GetWorldInfoList` are
  those of the rooms in 32 bits.
* `search_ok_iff`: `SearchRoom` counts what a scan of the rooms would, unless a room with a world is
  sought by its lobby.
-/

namespace ShadNet

open Lib

variable {m m' : MatchingSharedState} {key : RoomKey} {room room' : Room}

/-! ## The lists as indices -/

/-- Where a room is listed by its world. -/
def worldEntry (key : RoomKey) (room : Room) : Option ((String × ℕ) × ℕ) :=
  if room.worldId ≠ 0 then some ((key.1, room.worldId), key.2) else none

/-- Where a room without a world is listed by its lobby. -/
def lobbyEntry (key : RoomKey) (room : Room) : Option ((String × ℕ) × ℕ) :=
  if room.worldId = 0 ∧ room.lobbyId ≠ 0 then some ((key.1, room.lobbyId), key.2) else none

/-- The key of a room that is listed. -/
def listedKey (i : String × ℕ) (rid : ℕ) : RoomKey := (i.1, rid)

/-- A room is listed in its world if it has one. -/
theorem worldEntry_eq_some {i : String × ℕ} {rid : ℕ} : worldEntry key room = some (i, rid) ↔
    room.worldId ≠ 0 ∧ i = (key.1, room.worldId) ∧ rid = key.2 := by
  unfold worldEntry
  split <;> simp_all [eq_comm]

/-- A room is listed in its lobby if it has one and no world. -/
theorem lobbyEntry_eq_some {i : String × ℕ} {rid : ℕ} : lobbyEntry key room = some (i, rid) ↔
    (room.worldId = 0 ∧ room.lobbyId ≠ 0) ∧ i = (key.1, room.lobbyId) ∧ rid = key.2 := by
  unfold lobbyEntry
  split <;> simp_all [eq_comm]

theorem worldEntry_keyed : Keyed worldEntry listedKey := by
  constructor
  · intro key room i rid h
    obtain ⟨-, rfl, rfl⟩ := worldEntry_eq_some.mp h
    rfl
  · intro i a a' h
    exact (Prod.mk.inj h).2

theorem lobbyEntry_keyed : Keyed lobbyEntry listedKey := by
  constructor
  · intro key room i rid h
    obtain ⟨-, rfl, rfl⟩ := lobbyEntry_eq_some.mp h
    rfl
  · intro i a a' h
    exact (Prod.mk.inj h).2

/-- A new room is put in and listed in its world or its lobby. -/
theorem insertRoom_eq (m : MatchingSharedState) (key : RoomKey) (room : Room) :
    m.insertRoom key room = { m with
      rooms := m.rooms.set key room
      worldRooms := m.worldRooms.addTo (worldEntry key room)
      lobbyRooms := m.lobbyRooms.addTo (lobbyEntry key room) } := by
  unfold MatchingSharedState.insertRoom worldEntry lobbyEntry
  by_cases hw : room.worldId = 0 <;> by_cases hl : room.lobbyId = 0 <;>
    simp [hw, hl, Table.addTo, Table.listAt, MatchingSharedState.setRoom]

/-- A room that goes is taken out and off the lists. -/
theorem eraseRoom_eq (m : MatchingSharedState) (key : RoomKey) (room : Room) :
    m.eraseRoom key room = { m with
      rooms := m.rooms.del key
      worldRooms := m.worldRooms.removeFrom (worldEntry key room)
      lobbyRooms := m.lobbyRooms.removeFrom (lobbyEntry key room) } := by
  unfold MatchingSharedState.eraseRoom worldEntry lobbyEntry
  by_cases hw : room.worldId = 0 <;> by_cases hl : room.lobbyId = 0 <;>
    simp [hw, hl, Table.removeFrom, Table.listAt]

/-! ## What events do -/

/-- The room stays in its world and its lobby. -/
structure SamePlace (room room' : Room) : Prop where
  world : room'.worldId = room.worldId
  lobby : room'.lobbyId = room.lobbyId

theorem SamePlace.refl (room : Room) : SamePlace room room := ⟨rfl, rfl⟩

theorem SamePlace.trans {room'' : Room} (h : SamePlace room room') (h' : SamePlace room' room'') :
    SamePlace room room'' := ⟨h'.world.trans h.world, h'.lobby.trans h.lobby⟩

theorem SamePlace.foldl {α : Type} {f : Room → α → Room} (hf : ∀ room a, SamePlace room (f room a))
    (l : List α) (room : Room) : SamePlace room (l.foldl f room) := by
  induction l generalizing room with
  | nil => exact .refl room
  | cons a l ih => exact (hf room a).trans (ih _)

/-- A room changes in its place, or comes with the next id, or goes. -/
inductive RoomsStep (m : MatchingSharedState) : MatchingSharedState → Prop
  | same : RoomsStep m m
  | update {key : RoomKey} {room room' : Room} (hroom : m.rooms.get? key = some room)
      (hplace : SamePlace room room') : RoomsStep m (m.setRoom key room')
  | insert {key : RoomKey} {room : Room} (hkey : key.2 = m.nextRoomId) :
      RoomsStep m (({ m with nextRoomId := m.nextRoomId + 1 }).insertRoom key room)
  | erase {key : RoomKey} {room : Room} (hroom : m.rooms.get? key = some room) :
      RoomsStep m (m.eraseRoom key room)

theorem join_place (room : Room) (joiner : RoomMember) : SamePlace room (room.join joiner) := by
  unfold Room.join
  simp only
  split <;> exact ⟨rfl, rfl⟩

theorem afterLeave_place (room : Room) (mid : ℕ) (order : Order ℕ) (wasOwner : Bool) :
    SamePlace room ((room.dropMember mid).afterLeave order wasOwner) := by
  obtain ⟨_, _, _, heq⟩ := afterLeave_eq (room.dropMember mid) order wasOwner
  rw [heq]
  exact ⟨rfl, rfl⟩

theorem kick_place (room : Room) (target : RoomMember) (mid flag : ℕ) :
    SamePlace room (room.kick target mid flag) := by
  unfold Room.kick
  simp only
  split <;> exact ⟨rfl, rfl⟩

theorem applySearchIntAttr_place (room : Room) (a : MatchingIntAttr) :
    SamePlace room (applySearchIntAttr room a) := by
  unfold applySearchIntAttr
  simp only
  split <;> exact ⟨rfl, rfl⟩

theorem setDataInternal_place (room : Room) (req : SetRoomDataInternalRequest) (now setterId : ℕ) :
    SamePlace room (room.setDataInternal req now setterId) := by
  have hattr : ∀ room a, SamePlace room (applyInternalBinAttr now setterId room a) := by
    intro room a
    unfold applyInternalBinAttr
    simp only
    split <;> exact ⟨rfl, rfl⟩
  unfold Room.setDataInternal
  simp only
  refine SamePlace.trans ?_ (SamePlace.foldl hattr _ _)
  split <;> exact ⟨rfl, rfl⟩

theorem setDataExternal_place (room : Room) (req : SetRoomDataExternalRequest) :
    SamePlace room (room.setDataExternal req) := by
  have hsearch : ∀ room a, SamePlace room (applySearchBinAttr room a) := by
    intro room a
    unfold applySearchBinAttr
    simp only
    split <;> exact ⟨rfl, rfl⟩
  have hexternal : ∀ room a, SamePlace room (applyExternalBinAttr room a) := by
    intro room a
    unfold applyExternalBinAttr
    simp only
    split <;> exact ⟨rfl, rfl⟩
  unfold Room.setDataExternal
  exact ((SamePlace.foldl applySearchIntAttr_place _ _).trans (SamePlace.foldl hsearch _ _)).trans
    (SamePlace.foldl hexternal _ _)

variable {info : ClientInfo} {env : MatchingEnv} {s : MatchingState}

/-- `CreateRoom` takes a step of the rooms. -/
theorem cmdCreateRoom_step (req : Option CreateRoomRequest) :
    RoomsStep s.shared (cmdCreateRoom info env s req).1.shared := by
  cases req with
  | none => exact .same
  | some req => exact .insert rfl

/-- `JoinRoom` takes a step of the rooms. -/
theorem cmdJoinRoom_step (req : Option JoinRoomRequest) :
    RoomsStep s.shared (cmdJoinRoom info env s req).1.shared := by
  rcases cmdJoinRoom_cases info env s req with
    ⟨hsame, -⟩ | ⟨r, room, _, _, _, -, hroom, -, -, hshared, -⟩
  · rw [hsame]
    exact .same
  · rw [hshared]
    exact .update hroom (join_place _ _)

theorem leaveRoom_step {npid : String} {order : Order ℕ} {mid : ℕ}
    (h : leaveRoom m key npid order = some (m', mid)) : RoomsStep m m' := by
  obtain ⟨room, me, hroom, -, -, ⟨-, rfl⟩ | ⟨-, rfl⟩⟩ := leaveRoom_eq h
  · exact .erase hroom
  · exact .update hroom (afterLeave_place _ _ _ _)

/-- `LeaveRoom` takes a step of the rooms. -/
theorem cmdLeaveRoom_step (roomId : Option ℕ) :
    RoomsStep s.shared (cmdLeaveRoom info env s roomId).1.shared := by
  rcases cmdLeaveRoom_cases info env s roomId with ⟨e, heq⟩ | ⟨rid, m', mid, -, hleave, heq⟩
  · rw [heq]
    exact .same
  · rw [heq]
    exact leaveRoom_step hleave

/-- The cleanup takes a step of the rooms. -/
theorem cleanupMatching_step (order : Order ℕ) :
    RoomsStep s.shared (cleanupMatchingOnDisconnect info order s).shared := by
  rcases cleanupMatchingOnDisconnect_cases info order s with heq | ⟨m', mid, -, -, hleave, heq⟩
  · rw [heq]
    exact .same
  · rw [heq]
    exact leaveRoom_step hleave

/-- A kick takes a step of the rooms. -/
theorem cmdKickoutRoomMember_step (req : Option KickoutRoomMemberRequest) :
    RoomsStep s.shared (cmdKickoutRoomMember info env s req).1.shared := by
  rcases cmdKickoutRoomMember_cases info env s req with
    ⟨e, heq⟩ | ⟨r, room, _, _, -, hroom, -, -, -, -, heq⟩
  · rw [heq]
    exact .same
  · rw [heq]
    exact .update hroom (kick_place _ _ _ _)

theorem cmdSetRoomDataInternal_step (req : Option SetRoomDataInternalRequest) :
    RoomsStep s.shared (cmdSetRoomDataInternal info env s req).1.shared := by
  rcases cmdSetRoomDataInternal_cases info env s req with
    ⟨e, heq⟩ | ⟨r, room, setterId, -, hroom, heq⟩
  · rw [heq]
    exact .same
  · rw [heq]
    exact .update hroom (setDataInternal_place _ _ _ _)

theorem cmdSetRoomDataExternal_step (req : Option SetRoomDataExternalRequest) :
    RoomsStep s.shared (cmdSetRoomDataExternal s req).1.shared := by
  rcases cmdSetRoomDataExternal_cases s req with ⟨e, heq⟩ | ⟨r, room, -, hroom, heq⟩
  · rw [heq]
    exact .same
  · rw [heq]
    exact .update hroom (setDataExternal_place _ _)

/-- Every room command takes a step of the rooms. -/
theorem onRooms_step {cmd : Command} {f : MatchingState → MatchingResult}
    (h : cmd.onRooms info env = some f) (s : MatchingState) :
    RoomsStep s.shared (f s).1.shared := by
  cases cmd <;> simp only [Command.onRooms, reduceCtorEq, Option.some.injEq] at h <;> subst h
  case createRoom req => exact cmdCreateRoom_step req
  case joinRoom req => exact cmdJoinRoom_step req
  case leaveRoom roomId => exact cmdLeaveRoom_step roomId
  case kickoutRoomMember req => exact cmdKickoutRoomMember_step req
  case setRoomDataInternal req => exact cmdSetRoomDataInternal_step req
  case setRoomDataExternal req => exact cmdSetRoomDataExternal_step req

/-- **What an event does to the rooms.** -/
theorem step_rooms (sv : Services) (server : Server) (e : Event) :
    RoomsStep server.shared.matching (server.step sv e).shared.matching := by
  cases e with
  | connect => exact .same
  | request c cmd env =>
    simp only [Server.step]
    cases hc : server.conns.get? c with
    | none => exact .same
    | some session =>
      simp only
      rcases dispatch_cases sv env c ⟨server.db, server.shared, session⟩ cmd with
        ⟨f, -, hf, heq⟩ | hother
      · rw [heq]
        exact onRooms_step hf ⟨server.shared.matching, session.matching⟩
      · rw [hother.matching]
        exact .same
  | disconnect c env =>
    simp only [Server.step]
    cases hc : server.live c with
    | none => exact .same
    | some session =>
      simp only [cleanupOnDisconnect_matching]
      split
      · exact cleanupMatching_step (s := ⟨server.shared.matching, session.matching⟩) _
      · exact .same

/-! ## The invariant -/

/-- The lists name the rooms where they belong, ids are below the next, no two keys share an id,
and there is no list of world 0. -/
structure IndexInv (m : MatchingSharedState) : Prop where
  world : Indexed worldEntry m.rooms m.worldRooms
  lobby : Indexed lobbyEntry m.rooms m.lobbyRooms
  below : ∀ key room, m.rooms.get? key = some room → key.2 < m.nextRoomId
  unique : ∀ key room key' room', m.rooms.get? key = some room → m.rooms.get? key' = some room' →
    key.2 = key'.2 → key = key'
  worlds : ∀ i ids, m.worldRooms.get? i = some ids → i.2 ≠ 0

/-- Only lists of a room's own world are written. -/
theorem worlds_kept {ix ix' : Table (String × ℕ) (List ℕ)}
    (h : ∀ i ids, ix.get? i = some ids → i.2 ≠ 0)
    (hix : ∀ p, worldEntry key room = some p → ∃ l, ix' = ix.set p.1 l)
    (hnone : worldEntry key room = none → ix' = ix) :
    ∀ i ids, ix'.get? i = some ids → i.2 ≠ 0 := by
  intro i ids hi
  cases hentry : worldEntry key room with
  | none =>
    rw [hnone hentry] at hi
    exact h i ids hi
  | some p =>
    obtain ⟨l, hl⟩ := hix p hentry
    rw [hl] at hi
    rcases Table.of_get?_set hi with ⟨rfl, -⟩ | ⟨-, hold⟩
    · obtain ⟨hw, hp, -⟩ := worldEntry_eq_some.mp hentry
      rw [hp]
      exact hw
    · exact h i ids hold

/-- A new room under the next id keeps the indices right. -/
theorem IndexInv.insert (h : IndexInv m) (hkey : key.2 = m.nextRoomId) (room : Room) :
    IndexInv (({ m with nextRoomId := m.nextRoomId + 1 }).insertRoom key room) := by
  -- the id is new under every key
  have hnew : ∀ key' room', m.rooms.get? key' = some room' → key'.2 ≠ key.2 := by
    intro key' room' hroom
    have hlt := h.below key' room' hroom
    omega
  have hnone : m.rooms.get? key = none := by
    by_contra hsome
    obtain ⟨room', hroom⟩ := Option.ne_none_iff_exists'.mp hsome
    exact hnew key room' hroom rfl
  rw [insertRoom_eq]
  refine ⟨h.world.insert worldEntry_keyed hnone, h.lobby.insert lobbyEntry_keyed hnone, ?_, ?_, ?_⟩
  · intro key' room' hroom
    simp only at hroom ⊢
    rcases Table.of_get?_set hroom with ⟨rfl, -⟩ | ⟨-, hold⟩
    · omega
    · have hlt := h.below key' room' hold
      omega
  · intro k1 r1 k2 r2 h1 h2 heq
    rcases Table.of_get?_set h1 with ⟨rfl, -⟩ | ⟨-, hold1⟩ <;>
      rcases Table.of_get?_set h2 with ⟨rfl, -⟩ | ⟨-, hold2⟩
    · rfl
    · exact absurd heq.symm (hnew k2 r2 hold2)
    · exact absurd heq (hnew k1 r1 hold1)
    · exact h.unique k1 r1 k2 r2 hold1 hold2 heq
  · refine worlds_kept h.worlds (fun p (hp : worldEntry key room = some p) => ?_) fun hnone => ?_
    · exact ⟨_, by rw [hp]; rfl⟩
    · rw [hnone]
      rfl

/-- A room that goes leaves the indices right. -/
theorem IndexInv.erase (h : IndexInv m) (hroom : m.rooms.get? key = some room) :
    IndexInv (m.eraseRoom key room) := by
  rw [eraseRoom_eq]
  refine ⟨h.world.erase worldEntry_keyed hroom, h.lobby.erase lobbyEntry_keyed hroom, ?_, ?_, ?_⟩
  · intro key' room' hget
    exact h.below key' room' (Table.of_get?_del hget).2
  · intro k1 r1 k2 r2 h1 h2 heq
    exact h.unique k1 r1 k2 r2 (Table.of_get?_del h1).2 (Table.of_get?_del h2).2 heq
  · refine worlds_kept h.worlds (fun p (hp : worldEntry key room = some p) => ?_) fun hnone => ?_
    · exact ⟨_, by rw [hp]; rfl⟩
    · rw [hnone]
      rfl

/-- A room put back in the same place leaves the indices right. -/
theorem IndexInv.update (h : IndexInv m) (hroom : m.rooms.get? key = some room)
    (hplace : SamePlace room room') : IndexInv (m.setRoom key room') := by
  have hold : ∀ key' r, (m.setRoom key room').rooms.get? key' = some r →
      ∃ r', m.rooms.get? key' = some r' := by
    intro key' r hget
    rcases Table.of_get?_set hget with ⟨rfl, -⟩ | ⟨-, hold⟩
    · exact ⟨room, hroom⟩
    · exact ⟨r, hold⟩
  refine ⟨h.world.update hroom ?_, h.lobby.update hroom ?_, ?_, ?_, h.worlds⟩
  · unfold worldEntry
    rw [hplace.world]
  · unfold lobbyEntry
    rw [hplace.world, hplace.lobby]
  · intro key' r hget
    obtain ⟨r', hr'⟩ := hold key' r hget
    exact h.below key' r' hr'
  · intro k1 r1 k2 r2 h1 h2 heq
    obtain ⟨r1', h1'⟩ := hold k1 r1 h1
    obtain ⟨r2', h2'⟩ := hold k2 r2 h2
    exact h.unique k1 r1' k2 r2' h1' h2' heq

/-- Every step of the rooms keeps the indices right. -/
theorem RoomsStep.indexInv (hstep : RoomsStep m m') (h : IndexInv m) : IndexInv m' := by
  cases hstep with
  | same => exact h
  | update hroom hplace => exact h.update hroom hplace
  | insert hkey => exact h.insert hkey _
  | erase hroom => exact h.erase hroom

/-- The indices are right along every run. -/
theorem server_indexInv (sv : Services) (db : Database) (titleGroups : Table String String)
    (events : List Event) (n : ℕ) :
    IndexInv (configuredServerAfter sv db titleGroups events n).shared.matching := by
  refine runAt_inv (P := fun s : Server => IndexInv s.shared.matching) ?_ ?_ events n
  · refine ⟨.empty, .empty, ?_, ?_, ?_⟩
    · intro key room hroom
      cases hroom
    · intro key room key' room' hroom
      cases hroom
    · intro i ids hi
      cases hi
  · intro s e h
    exact (step_rooms sv s e).indexInv h

/-! ## The lists and the rooms agree -/

/-- What the lists say of the rooms, and the rooms of the lists. -/
structure IndicesOk (m : MatchingSharedState) : Prop where
  world : ∀ k w rid, rid ∈ m.worldRooms.listAt (k, w) →
    w ≠ 0 ∧ ∃ room, m.rooms.get? (k, rid) = some room ∧ room.worldId = w
  lobby : ∀ k l rid, rid ∈ m.lobbyRooms.listAt (k, l) →
    ∃ room, m.rooms.get? (k, rid) = some room ∧ room.worldId = 0 ∧ room.lobbyId = l
  worldOnce : ∀ i rid, rid ∈ m.worldRooms.listAt i → (m.worldRooms.listAt i).count rid = 1
  lobbyOnce : ∀ i rid, rid ∈ m.lobbyRooms.listAt i → (m.lobbyRooms.listAt i).count rid = 1
  /-- no id is in two lists -/
  worldOnly : ∀ i j rid, rid ∈ m.worldRooms.listAt i → rid ∈ m.worldRooms.listAt j → i = j
  lobbyOnly : ∀ i j rid, rid ∈ m.lobbyRooms.listAt i → rid ∈ m.lobbyRooms.listAt j → i = j
  apart : ∀ i j rid, rid ∈ m.worldRooms.listAt i → rid ∉ m.lobbyRooms.listAt j
  worldListed : ∀ k rid room, m.rooms.get? (k, rid) = some room → room.worldId ≠ 0 →
    rid ∈ m.worldRooms.listAt (k, room.worldId)
  lobbyListed : ∀ k rid room, m.rooms.get? (k, rid) = some room → room.worldId = 0 →
    room.lobbyId ≠ 0 → rid ∈ m.lobbyRooms.listAt (k, room.lobbyId)

theorem IndexInv.found_world (h : IndexInv m) {i : String × ℕ} {rid : ℕ}
    (hmem : rid ∈ m.worldRooms.listAt i) :
    ∃ room, m.rooms.get? (i.1, rid) = some room ∧ room.worldId ≠ 0 ∧ room.worldId = i.2 := by
  obtain ⟨room, hroom, hentry⟩ := h.world.found worldEntry_keyed hmem
  obtain ⟨hw, hi, -⟩ := worldEntry_eq_some.mp hentry
  exact ⟨room, hroom, hw, (congrArg Prod.snd hi).symm⟩

theorem IndexInv.found_lobby (h : IndexInv m) {i : String × ℕ} {rid : ℕ}
    (hmem : rid ∈ m.lobbyRooms.listAt i) :
    ∃ room, m.rooms.get? (i.1, rid) = some room ∧ room.worldId = 0 ∧ room.lobbyId = i.2 := by
  obtain ⟨room, hroom, hentry⟩ := h.lobby.found lobbyEntry_keyed hmem
  obtain ⟨hw, hi, -⟩ := lobbyEntry_eq_some.mp hentry
  exact ⟨room, hroom, hw.1, (congrArg Prod.snd hi).symm⟩

/-- Two keys with one id are one key, and so one room. -/
theorem IndexInv.same_room (h : IndexInv m) {k k' : String} {rid : ℕ}
    (hroom : m.rooms.get? (k, rid) = some room) (hroom' : m.rooms.get? (k', rid) = some room') :
    k = k' ∧ room = room' := by
  obtain rfl : k = k' := congrArg Prod.fst (h.unique _ _ _ _ hroom hroom' rfl)
  exact ⟨rfl, Option.some.inj (hroom.symm.trans hroom')⟩

theorem IndexInv.indicesOk (h : IndexInv m) : IndicesOk m where
  world k w rid hmem := by
    obtain ⟨room, hroom, hne, hw⟩ := h.found_world hmem
    exact ⟨fun hzero => hne (hw.trans hzero), room, hroom, hw⟩
  lobby k l rid hmem := h.found_lobby hmem
  worldOnce i rid hmem := List.count_eq_one_of_mem (h.world.nodup i) hmem
  lobbyOnce i rid hmem := List.count_eq_one_of_mem (h.lobby.nodup i) hmem
  worldOnly i j rid hi hj := by
    obtain ⟨room, hroom, -, hw⟩ := h.found_world hi
    obtain ⟨room', hroom', -, hw'⟩ := h.found_world hj
    obtain ⟨hk, rfl⟩ := h.same_room hroom hroom'
    exact Prod.ext hk (hw.symm.trans hw')
  lobbyOnly i j rid hi hj := by
    obtain ⟨room, hroom, -, hl⟩ := h.found_lobby hi
    obtain ⟨room', hroom', -, hl'⟩ := h.found_lobby hj
    obtain ⟨hk, rfl⟩ := h.same_room hroom hroom'
    exact Prod.ext hk (hl.symm.trans hl')
  apart i j rid hi hj := by
    -- a room with a world is not listed by its lobby
    obtain ⟨room, hroom, hne, -⟩ := h.found_world hi
    obtain ⟨room', hroom', hw', -⟩ := h.found_lobby hj
    obtain ⟨-, rfl⟩ := h.same_room hroom hroom'
    exact hne hw'
  worldListed k rid room hroom hw :=
    (h.world.mem _ _).mpr ⟨_, room, hroom, worldEntry_eq_some.mpr ⟨hw, rfl, rfl⟩⟩
  lobbyListed k rid room hroom hw hl :=
    (h.lobby.mem _ _).mpr ⟨_, room, hroom, lobbyEntry_eq_some.mpr ⟨⟨hw, hl⟩, rfl, rfl⟩⟩

/-! ## Counts -/

/-- The rooms under a key that are in a world, in the order of the room map. -/
def roomsOfWorld (m : MatchingSharedState) (k : String) (w : ℕ) : List Room :=
  ((m.rooms.inOrder .listed).filter fun e => e.1.1 = k ∧ e.2.worldId = w).map Prod.snd

/-- The counts go over the list with 32 bits. -/
theorem countRoomsAndMembers_eq (m : MatchingSharedState) (k : String) (w : ℕ) :
    let found := (m.worldRooms.listAt (k, w)).filterMap fun rid => m.rooms.get? (k, rid)
    countRoomsAndMembers m k w =
      (found.length % 2 ^ 32, (found.map (·.members.size)).sum % 2 ^ 32) := by
  have hfold : ∀ (ids : List ℕ) (a b : ℕ),
      ids.foldl (fun n rid => countRoom n (m.rooms.get? (k, rid))) (a % 2 ^ 32, b % 2 ^ 32) =
      ((a + (ids.filterMap fun rid => m.rooms.get? (k, rid)).length) % 2 ^ 32,
        (b + ((ids.filterMap fun rid => m.rooms.get? (k, rid)).map (·.members.size)).sum) % 2 ^ 32) := by
    intro ids
    induction ids with
    | nil => simp
    | cons rid ids ih =>
      intro a b
      cases hroom : m.rooms.get? (k, rid) with
      | none =>
        simp only [List.foldl_cons, hroom, List.filterMap_cons]
        exact ih a b
      | some room =>
        have hone : countRoom (a % 2 ^ 32, b % 2 ^ 32) (some room) =
            ((a + 1) % 2 ^ 32, (b + room.members.size) % 2 ^ 32) := by
          simp only [countRoom, Nat.mod_add_mod]
        simp only [List.foldl_cons, hroom, List.filterMap_cons]
        rw [hone, ih, List.length_cons, List.map_cons, List.sum_cons, Nat.add_assoc,
          Nat.add_comm 1, Nat.add_assoc]
  have hall := hfold (m.worldRooms.listAt (k, w)) 0 0
  simp only [Nat.zero_mod, Nat.zero_add] at hall
  exact hall

/-- A world's list and a scan find the same rooms. -/
theorem IndexInv.world_perm (h : IndexInv m) (k : String) {w : ℕ} (hw : w ≠ 0) :
    ((m.worldRooms.listAt (k, w)).filterMap fun rid => m.rooms.get? (k, rid)).Perm
      (roomsOfWorld m k w) := by
  have hperm := h.world.rows_perm worldEntry_keyed .listed (k, w)
  have hsame : ∀ e : RoomKey × Room, decide ((worldEntry e.1 e.2).map Prod.fst = some (k, w)) =
      decide (e.1.1 = k ∧ e.2.worldId = w) := by
    intro e
    rw [decide_eq_decide]
    unfold worldEntry
    split <;> simp_all [eq_comm]
  rw [List.filter_congr fun e _ => hsame e] at hperm
  exact hperm

/-- The counts of a world are those of its rooms, in 32 bits. -/
theorem IndexInv.count_world (h : IndexInv m) (k : String) {w : ℕ} (hw : w ≠ 0) :
    countRoomsAndMembers m k w = ((roomsOfWorld m k w).length % 2 ^ 32,
      ((roomsOfWorld m k w).map (·.members.size)).sum % 2 ^ 32) := by
  rw [countRoomsAndMembers_eq]
  have hperm := h.world_perm k hw
  rw [hperm.length_eq, (hperm.map fun room => room.members.size).sum_nat]

theorem IndexInv.activeWorlds_ne (h : IndexInv m) {order : Order (String × ℕ)} {k : String} {w : ℕ}
    (hmem : w ∈ activeWorlds m order k) : w ≠ 0 := by
  have hfold : ∀ (l : List ((String × ℕ) × List ℕ)) (acc : List ℕ), (∀ e ∈ l, e.1.2 ≠ 0) →
      (∀ w ∈ acc, w ≠ 0) → ∀ w ∈ l.foldl (fun worldIds e =>
        if e.1.1 ≠ k ∨ e.1.2 ∈ worldIds then worldIds else worldIds ++ [e.1.2]) acc, w ≠ 0 := by
    intro l
    induction l with
    | nil =>
      intro acc _ hacc
      exact hacc
    | cons e l ih =>
      intro acc hl hacc
      refine ih _ (fun e he => hl e (List.mem_cons_of_mem _ he)) ?_
      intro w hw
      simp only at hw
      split at hw
      · exact hacc w hw
      · rcases List.mem_append.mp hw with hold | hnew
        · exact hacc w hold
        · rw [List.mem_singleton.mp hnew]
          exact hl e List.mem_cons_self
  unfold activeWorlds at hmem
  simp only at hmem
  split at hmem
  · rw [List.mem_singleton.mp hmem]
    exact one_ne_zero
  · refine hfold _ [] ?_ ?_ w hmem
    · rintro ⟨i, ids⟩ he
      exact h.worlds i ids (Table.mem_inOrder.mp he)
    · intro w hw
      cases hw

/-- The counts that `GetWorldInfoList` gives for a world. -/
theorem IndexInv.worlds_counted (h : IndexInv m) {configs : Table String (List WorldConfig)}
    {order : Order (String × ℕ)} {own : MatchingSessionState} {req : Option ℕ}
    {worlds : List MatchingWorld} (hok : cmdGetWorldInfoList configs order ⟨m, own⟩ req = .ok worlds)
    {w : MatchingWorld} (hw : w ∈ worlds) :
    w.roomsNum = (roomsOfWorld m own.matchingKey w.worldId).length % 2 ^ 32 ∧
      w.roomMembersNum =
        ((roomsOfWorld m own.matchingKey w.worldId).map (·.members.size)).sum % 2 ^ 32 := by
  have hcount : ∀ worldId lobbies members, worldId ≠ 0 →
      w = matchingWorld m own.matchingKey worldId lobbies members →
      w.roomsNum = (roomsOfWorld m own.matchingKey w.worldId).length % 2 ^ 32 ∧
        w.roomMembersNum =
          ((roomsOfWorld m own.matchingKey w.worldId).map (·.members.size)).sum % 2 ^ 32 := by
    rintro worldId lobbies members hne rfl
    simp only [matchingWorld, h.count_world own.matchingKey hne, and_self]
  cases req with
  | none => cases hok
  | some serverId =>
    simp only [cmdGetWorldInfoList] at hok
    split at hok
    · -- the worlds of the configuration
      obtain rfl := Except.ok.inj hok
      obtain ⟨wc, -, rfl⟩ := List.mem_map.mp hw
      exact hcount wc.worldId _ _ wc.worldId_ne rfl
    · -- the worlds of the rooms
      obtain rfl := Except.ok.inj hok
      obtain ⟨worldId, hactive, rfl⟩ := List.mem_map.mp hw
      exact hcount worldId _ _ (h.activeWorlds_ne hactive) rfl

/-- **Lists and rooms agree** in every reachable state, and the worlds that are reported have the
rooms and the members that the room map has, up to what 32 bits can count. -/
theorem indices_ok (sv : Services) (db : Database) (titleGroups : Table String String)
    (events : List Event) (n : ℕ) :
    let m := (configuredServerAfter sv db titleGroups events n).shared.matching
    IndicesOk m ∧ ∀ configs order own req worlds,
      cmdGetWorldInfoList configs order ⟨m, own⟩ req = .ok worlds → ∀ w ∈ worlds,
        w.roomsNum = (roomsOfWorld m own.matchingKey w.worldId).length % 2 ^ 32 ∧
          w.roomMembersNum =
            ((roomsOfWorld m own.matchingKey w.worldId).map (·.members.size)).sum % 2 ^ 32 := by
  intro m
  have h : IndexInv m := server_indexInv sv db titleGroups events n
  refine ⟨h.indicesOk, ?_⟩
  intro configs order own req worlds hok w hw
  exact h.worlds_counted hok hw

/-! ## Search -/

/-- What a search without lists would select. -/
def searchSelects (k : String) (req : SearchRoomRequest) (e : RoomKey × Room) : Prop :=
  e.1.1 = k ∧ (req.worldId ≠ 0 → e.2.worldId = req.worldId) ∧
    (req.worldId = 0 → req.lobbyId ≠ 0 → e.2.lobbyId = req.lobbyId) ∧
    roomMatchesFilters e.2 req = true

instance (k : String) (req : SearchRoomRequest) (e : RoomKey × Room) :
    Decidable (searchSelects k req e) := inferInstanceAs (Decidable (_ ∧ _ ∧ _ ∧ _))

/-- A scan of the whole room map. -/
def searchScan (m : MatchingSharedState) (k : String) (req : SearchRoomRequest) : List Room :=
  ((m.rooms.inOrder .listed).filter fun e => searchSelects k req e).map Prod.snd

/-- No room with a world is sought by its lobby. -/
def WorldOrNoLobby (m : MatchingSharedState) (k : String) (req : SearchRoomRequest) : Prop :=
  req.worldId ≠ 0 ∨ req.lobbyId = 0 ∨ ∀ rid room, m.rooms.get? (k, rid) = some room →
    room.lobbyId = req.lobbyId → roomMatchesFilters room req = true → room.worldId = 0

theorem IndexInv.lobby_perm (h : IndexInv m) (k : String) {l : ℕ} (hl : l ≠ 0) :
    ((m.lobbyRooms.listAt (k, l)).filterMap fun rid => m.rooms.get? (k, rid)).Perm
      (((m.rooms.inOrder .listed).filter fun e =>
        e.1.1 = k ∧ e.2.worldId = 0 ∧ e.2.lobbyId = l).map Prod.snd) := by
  have hperm := h.lobby.rows_perm lobbyEntry_keyed .listed (k, l)
  have hsame : ∀ e : RoomKey × Room, decide ((lobbyEntry e.1 e.2).map Prod.fst = some (k, l)) =
      decide (e.1.1 = k ∧ e.2.worldId = 0 ∧ e.2.lobbyId = l) := by
    intro e
    rw [decide_eq_decide]
    unfold lobbyEntry
    split
    · simp_all [eq_comm]
    · simp
      grind
  rw [List.filter_congr fun e _ => hsame e] at hperm
  exact hperm

/-- A filter on the rooms is one on the rows. -/
theorem filter_rows (l : List (RoomKey × Room)) (p : RoomKey × Room → Prop) [DecidablePred p]
    (q : Room → Bool) : ((l.filter fun e => p e).map Prod.snd).filter q =
      (l.filter fun e => p e ∧ q e.2 = true).map Prod.snd := by
  rw [List.filter_map, List.filter_filter]
  congr 1
  refine List.filter_congr fun e _ => ?_
  rw [Bool.decide_and, Bool.decide_eq_true, Bool.and_comm, Function.comp_apply]

/-- The rooms under a key, all of them. -/
theorem all_perm (m : MatchingSharedState) (order : Order RoomKey) (k : String) :
    ((((m.rooms.inOrder order).filter fun e => e.1.1 = k).map fun e => e.1.2).filterMap fun rid =>
        m.rooms.get? (k, rid)).Perm
      (((m.rooms.inOrder .listed).filter fun e => e.1.1 = k).map Prod.snd) := by
  -- each id is looked up again and found
  have hfound : ((((m.rooms.inOrder order).filter fun e => e.1.1 = k).map fun e =>
      e.1.2).filterMap fun rid => m.rooms.get? (k, rid)) =
      ((m.rooms.inOrder order).filter fun e => e.1.1 = k).map Prod.snd := by
    rw [List.filterMap_map, ← List.filterMap_eq_map]
    refine List.filterMap_congr fun e he => ?_
    obtain ⟨hmem, hk⟩ := List.mem_filter.mp he
    obtain ⟨⟨k', rid⟩, room⟩ := e
    obtain rfl : k' = k := of_decide_eq_true hk
    exact Table.mem_inOrder.mp hmem
  rw [hfound]
  exact ((Table.inOrder_perm order .listed m.rooms).filter _).map _

/-- **A search by lists finds what a scan does**, exactly when no room with a world is sought by
its lobby. -/
theorem IndexInv.search_iff (h : IndexInv m) (order : Order RoomKey) (k : String)
    (req : SearchRoomRequest) :
    (searchMatches m order k req).Perm (searchScan m k req) ↔ WorldOrNoLobby m k req := by
  have hperm : ∀ {rooms : List Room} {p : RoomKey × Room → Prop} [DecidablePred p],
      rooms.Perm (((m.rooms.inOrder .listed).filter fun e => p e).map Prod.snd) →
      (∀ e ∈ m.rooms.inOrder .listed, p e ∧ roomMatchesFilters e.2 req = true ↔
        searchSelects k req e) →
      (rooms.filter fun room => roomMatchesFilters room req).Perm (searchScan m k req) := by
    intro rooms p _ hrooms hp
    have hfilter := hrooms.filter fun room => roomMatchesFilters room req
    rw [filter_rows] at hfilter
    unfold searchScan
    rwa [List.filter_congr fun e he => decide_eq_decide.mpr (hp e he)] at hfilter
  unfold searchMatches searchCandidates
  by_cases hw : req.worldId = 0
  · by_cases hl : req.lobbyId = 0
    · -- no list is asked for
      rw [if_neg (not_not.mpr hw), if_neg (not_not.mpr hl)]
      refine iff_of_true (hperm (all_perm m order k) ?_) (Or.inr (Or.inl hl))
      intro e _
      simp [searchSelects, hw, hl]
    · rw [if_neg (not_not.mpr hw), if_pos hl]
      constructor
      · intro hsame
        refine Or.inr (Or.inr fun rid room hroom hlobby hmatch => ?_)
        -- the scan selects the room, so the list of the lobby has it
        have hscan : room ∈ searchScan m k req := by
          refine List.mem_map.mpr ⟨((k, rid), room), List.mem_filter.mpr
            ⟨Table.mem_inOrder.mpr hroom, ?_⟩, rfl⟩
          simp [searchSelects, hw, hlobby, hmatch]
        obtain ⟨hfound, -⟩ := List.mem_filter.mp (hsame.mem_iff.mpr hscan)
        obtain ⟨e, he, rfl⟩ := List.mem_map.mp ((h.lobby_perm k hl).mem_iff.mp hfound)
        exact (of_decide_eq_true (List.mem_filter.mp he).2).2.1
      · intro hcond
        refine hperm (h.lobby_perm k hl) ?_
        rintro ⟨⟨k', rid⟩, room⟩ he
        have hroom := Table.mem_inOrder.mp he
        simp only [searchSelects, hw]
        constructor
        · rintro ⟨⟨hk, -, hlobby⟩, hmatch⟩
          exact ⟨hk, fun hne => absurd rfl hne, fun _ _ => hlobby, hmatch⟩
        · rintro ⟨rfl, -, hlobby, hmatch⟩
          have hall := (hcond.resolve_left (not_not.mpr hw)).resolve_left hl
          exact ⟨⟨rfl, hall rid room hroom (hlobby trivial hl) hmatch, hlobby trivial hl⟩, hmatch⟩
  · rw [if_pos hw]
    refine iff_of_true (hperm (h.world_perm k hw) ?_) (Or.inl hw)
    intro e _
    simp only [searchSelects, hw]
    tauto

/-- **Search by world or lobby** counts the rooms of a scan, in every reachable state and for
every caller and request, exactly when no room with a world is sought by its lobby. -/
theorem search_ok_iff (sv : Services) (db : Database) (titleGroups : Table String String)
    (events : List Event) (n : ℕ) (order : Order RoomKey) (own : MatchingSessionState)
    (req : SearchRoomRequest) :
    let m := (configuredServerAfter sv db titleGroups events n).shared.matching
    let counted := searchMatches m order own.matchingKey req
    (∃ reply, cmdSearchRoom order ⟨m, own⟩ (some req) = .ok reply ∧
      reply.rangeTotal = counted.length % 2 ^ 32) ∧
    (counted.Perm (searchScan m own.matchingKey req) ↔ WorldOrNoLobby m own.matchingKey req) := by
  intro m counted
  have h : IndexInv m := server_indexInv sv db titleGroups events n
  exact ⟨⟨_, rfl, rfl⟩, h.search_iff order own.matchingKey req⟩

/-- A room of lobby 5 gets the world of its session, and is not found by its lobby. -/
theorem lobby_not_found :
    let events : List Event := [.connect,
      .request 0 (.login (some ⟨"alice", "alice", "", "", "", false⟩)) .plain,
      .request 0 (.createRoom (some { maxSlots := 4, lobbyId := 5 })) .plain]
    let m := (configuredServerAfter .plain aliceAndBob ∅ events 3).shared.matching
    ¬ (searchMatches m .listed "" { lobbyId := 5 }).Perm (searchScan m "" { lobbyId := 5 }) := by
  intro events m h
  have hlength : (searchMatches m .listed "" { lobbyId := 5 }).length ≠
      (searchScan m "" { lobbyId := 5 }).length := by decide
  exact hlength h.length_eq

end ShadNet
