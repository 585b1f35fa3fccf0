import ShadNet.Proof.Account
import ShadNet.Proof.Room
import ShadNet.Spec.Server

/-!
# Room invariants

* `RoomSteps ok P`: all that commands do to one room keeps `P`, and `P` holds of new rooms whose
  request is `ok`. `RoomRules` is the case of a `P` about members, owner and capacity.
* `RoomSteps.server`: then `P` holds of every room along every run that creates rooms with such
  requests only.
* `rooms_ok`: with at most 64 slots for each room, in every reachable state every room is
  `RoomOk`.
-/

namespace ShadNet

open Lib

variable {P : Room → Prop} {ok : CreateRoomRequest → Prop} {info : ClientInfo} {env : MatchingEnv}
  {s : MatchingState} {m m' : MatchingSharedState} {key : RoomKey} {room : Room}

/-- What commands do to a room, for an invariant `P`. -/
structure RoomRules (ok : CreateRoomRequest → Prop) (P : Room → Prop) : Prop where
  created : ∀ {info env own rid req}, ok req → P (createdRoom info env own rid req).1
  join : ∀ {room order joiner}, P room → room.isFull = false →
    room.findByNpid order joiner.npid = none → joiner.flagAttr = 0 → P (room.join joiner)
  leave : ∀ {room order npid m}, P room → room.findByNpid order npid = some m →
    (room.dropMember m.memberId).isEmpty = false →
    P ((room.dropMember m.memberId).afterLeave order (decide (m.memberId = room.ownerMemberId)))
  kick : ∀ {room order npid initiator mid target flag}, P room →
    room.findByNpid order npid = some initiator → room.ownerMemberId = initiator.memberId →
    mid ≠ initiator.memberId → room.findById mid = some target → P (room.kick target mid flag)
  seats : ∀ {room room'}, P room → SameSeats room room' → P room'

/-- What keeps `P` in every room, for a `P` that may look at what `SetRoomData` writes. -/
structure RoomSteps (ok : CreateRoomRequest → Prop) (P : Room → Prop) : Prop where
  created : ∀ {info env own rid req}, ok req → P (createdRoom info env own rid req).1
  join : ∀ {room order joiner}, P room → room.isFull = false →
    room.findByNpid order joiner.npid = none → joiner.flagAttr = 0 → P (room.join joiner)
  leave : ∀ {room order npid m}, P room → room.findByNpid order npid = some m →
    (room.dropMember m.memberId).isEmpty = false →
    P ((room.dropMember m.memberId).afterLeave order (decide (m.memberId = room.ownerMemberId)))
  kick : ∀ {room order npid initiator mid target flag}, P room →
    room.findByNpid order npid = some initiator → room.ownerMemberId = initiator.memberId →
    mid ≠ initiator.memberId → room.findById mid = some target → P (room.kick target mid flag)
  setInternal : ∀ {room req now setterId}, P room → P (room.setDataInternal req now setterId)
  setExternal : ∀ {room req}, P room → P (room.setDataExternal req)

/-- What follows the rules is kept by all commands on a room. -/
theorem RoomRules.steps (h : RoomRules ok P) : RoomSteps ok P where
  created := h.created
  join := h.join
  leave := h.leave
  kick := h.kick
  setInternal hroom := h.seats hroom (setDataInternal_seats _ _ _ _)
  setExternal hroom := h.seats hroom (setDataExternal_seats _ _)

/-- What holds of every room. -/
def AllRooms (P : Room → Prop) (m : MatchingSharedState) : Prop :=
  ∀ key room, m.rooms.get? key = some room → P room

theorem AllRooms.of_rooms (h : AllRooms P m) (hr : m'.rooms = m.rooms) : AllRooms P m' := by
  intro key room hroom
  rw [hr] at hroom
  exact h key room hroom

/-- One room is written, and the others stay. -/
theorem AllRooms.set (h : AllRooms P m) (hroom : P room) (hr : m'.rooms = m.rooms.set key room) :
    AllRooms P m' := by
  intro key' room' hget
  rw [hr] at hget
  rcases Table.of_get?_set hget with ⟨-, rfl⟩ | ⟨-, hold⟩
  · exact hroom
  · exact h key' room' hold

/-- One room goes, and the others stay. -/
theorem AllRooms.del (h : AllRooms P m) (hr : m'.rooms = m.rooms.del key) : AllRooms P m' := by
  intro key' room' hget
  rw [hr] at hget
  exact h key' room' (Table.of_get?_del hget).2

theorem insertRoom_rooms : (m.insertRoom key room).rooms = m.rooms.set key room := by
  unfold MatchingSharedState.insertRoom
  simp only
  split
  · rfl
  · split <;> rfl

theorem eraseRoom_rooms : (m.eraseRoom key room).rooms = m.rooms.del key := by
  unfold MatchingSharedState.eraseRoom
  simp only
  split
  · rfl
  · split <;> rfl

/-! ## What each command does -/

/-- A join changes nothing, or lets the caller into a room that has a slot for him. -/
theorem cmdJoinRoom_cases (info : ClientInfo) (env : MatchingEnv) (s : MatchingState)
    (req : Option JoinRoomRequest) :
    ((cmdJoinRoom info env s req).1 = s ∧ (cmdJoinRoom info env s req).2.2 = none ∧
      (cmdJoinRoom info env s req).2.1 ≠ .noError) ∨
    ∃ r room maxSlots flags curMembers, req = some r ∧
      s.shared.rooms.get? (s.own.matchingKey, r.roomId) = some room ∧
      room.isFull = false ∧ room.findByNpid env.order info.npid = none ∧
      (cmdJoinRoom info env s req).1.shared =
        s.shared.setRoom (s.own.matchingKey, r.roomId) (room.join (createJoiner info env r)) ∧
      (cmdJoinRoom info env s req).2.1 = .noError ∧ (cmdJoinRoom info env s req).2.2 =
        some (.joinRoom r.roomId room.allocMemberId maxSlots flags curMembers
          (buildCreateJoinResponse (room.join (createJoiner info env r))
            (room.newMember (createJoiner info env r)))) := by
  cases req with
  | none => exact Or.inl ⟨rfl, rfl, by simp [cmdJoinRoom]⟩
  | some r =>
    unfold cmdJoinRoom
    simp only
    cases hroom : s.shared.rooms.get? (s.own.matchingKey, r.roomId) with
    | none => exact Or.inl ⟨rfl, rfl, by simp⟩
    | some room =>
      simp only
      -- the checks in the order of the source: capacity, membership, the lists, the password
      by_cases hfull : room.isFull = true
      · rw [if_pos hfull]
        exact Or.inl ⟨rfl, rfl, by simp⟩
      rw [if_neg hfull]
      by_cases hnpid : (room.findByNpid env.order info.npid).isSome = true
      · rw [if_pos hnpid]
        exact Or.inl ⟨rfl, rfl, by simp⟩
      rw [if_neg hnpid]
      by_cases hlist : room.refuses info = true
      · rw [if_pos hlist]
        exact Or.inl ⟨rfl, rfl, by simp⟩
      rw [if_neg hlist]
      split
      · exact Or.inl ⟨rfl, rfl, by simp⟩
      · exact Or.inr ⟨r, room, _, _, _, rfl, hroom, by simpa using hfull, by simpa using hnpid,
          rfl, rfl, rfl⟩

/-- A departure: the member that was found goes, and the room too if it was the last. -/
theorem leaveRoom_eq {npid : String} {order : Order ℕ} {mid : ℕ}
    (h : leaveRoom m key npid order = some (m', mid)) :
    ∃ room me, m.rooms.get? key = some room ∧ room.findByNpid order npid = some me ∧
      mid = me.memberId ∧
      (((room.dropMember me.memberId).isEmpty = true ∧ m' = m.eraseRoom key room) ∨
        ((room.dropMember me.memberId).isEmpty = false ∧
          m' = m.setRoom key ((room.dropMember me.memberId).afterLeave order
            (decide (me.memberId = room.ownerMemberId))))) := by
  unfold leaveRoom at h
  cases hroom : m.rooms.get? key with
  | none => simp [hroom] at h
  | some room =>
    cases hme : room.findByNpid order npid with
    | none => simp [hroom, hme] at h
    | some me =>
      simp only [hroom, hme] at h
      refine ⟨room, me, rfl, hme, ?_⟩
      -- the room goes with its last member
      by_cases hempty : (room.dropMember me.memberId).isEmpty = true
      · rw [if_pos hempty] at h
        obtain ⟨rfl, rfl⟩ := Prod.mk.inj (Option.some.inj h)
        exact ⟨rfl, Or.inl ⟨hempty, rfl⟩⟩
      · rw [if_neg hempty] at h
        obtain ⟨rfl, rfl⟩ := Prod.mk.inj (Option.some.inj h)
        exact ⟨rfl, Or.inr ⟨by simpa using hempty, rfl⟩⟩

/-- A leave takes the member out of the room, and the room goes with its last member. -/
theorem leaveRoom_cases {npid : String} {order : Order ℕ} {mid : ℕ}
    (h : leaveRoom m key npid order = some (m', mid)) :
    ∃ room me, m.rooms.get? key = some room ∧ room.findByNpid order npid = some me ∧
      mid = me.memberId ∧
      (((room.dropMember me.memberId).isEmpty = true ∧ m'.rooms = m.rooms.del key) ∨
        ((room.dropMember me.memberId).isEmpty = false ∧
          m'.rooms = m.rooms.set key ((room.dropMember me.memberId).afterLeave order
            (decide (me.memberId = room.ownerMemberId))))) := by
  obtain ⟨room, me, hroom, hme, hmid, hleft⟩ := leaveRoom_eq h
  refine ⟨room, me, hroom, hme, hmid, ?_⟩
  rcases hleft with ⟨hempty, rfl⟩ | ⟨hempty, rfl⟩
  · exact Or.inl ⟨hempty, eraseRoom_rooms⟩
  · exact Or.inr ⟨hempty, rfl⟩

/-- A kick is refused, or the target leaves. -/
theorem cmdKickoutRoomMember_cases (info : ClientInfo) (env : MatchingEnv) (s : MatchingState)
    (req : Option KickoutRoomMemberRequest) :
    (∃ e, cmdKickoutRoomMember info env s req = (s, e, none)) ∨
    ∃ r room initiator target, req = some r ∧
      s.shared.rooms.get? (s.own.matchingKey, r.roomId) = some room ∧
      room.findByNpid env.order info.npid = some initiator ∧
      room.ownerMemberId = initiator.memberId ∧
      r.targetMemberId % 2 ^ 16 ≠ initiator.memberId ∧
      room.findById (r.targetMemberId % 2 ^ 16) = some target ∧
      cmdKickoutRoomMember info env s req =
        (⟨s.shared.setRoom (s.own.matchingKey, r.roomId)
          (room.kick target (r.targetMemberId % 2 ^ 16) r.blockKickFlag), s.own⟩, .noError,
          some (.room r.roomId)) := by
  cases req with
  | none => exact Or.inl ⟨_, rfl⟩
  | some r =>
    unfold cmdKickoutRoomMember
    simp only
    cases hroom : s.shared.rooms.get? (s.own.matchingKey, r.roomId) with
    | none => exact Or.inl ⟨_, rfl⟩
    | some room =>
      simp only
      cases hini : room.findByNpid env.order info.npid with
      | none => exact Or.inl ⟨_, rfl⟩
      | some initiator =>
        simp only
        by_cases howner : room.ownerMemberId = initiator.memberId
        · rw [if_neg (not_not.mpr howner)]
          -- the target's id is cut to 16 bits before it is compared with the owner's
          by_cases hself : r.targetMemberId % 2 ^ 16 = 0 ∨ r.targetMemberId % 2 ^ 16 = initiator.memberId
          · rw [if_pos hself]
            exact Or.inl ⟨_, rfl⟩
          · rw [if_neg hself]
            cases htarget : room.findById (r.targetMemberId % 2 ^ 16) with
            | none => exact Or.inl ⟨_, rfl⟩
            | some target =>
              exact Or.inr ⟨r, room, initiator, target, rfl, hroom, hini, howner,
                fun h => hself (Or.inr h), htarget, rfl⟩
        · rw [if_pos howner]
          exact Or.inl ⟨_, rfl⟩

/-- A leave is refused, or the caller leaves. -/
theorem cmdLeaveRoom_cases (info : ClientInfo) (env : MatchingEnv) (s : MatchingState)
    (roomId : Option ℕ) :
    (∃ e, cmdLeaveRoom info env s roomId = (s, e, none)) ∨
    ∃ rid m' mid, roomId = some rid ∧
      leaveRoom s.shared (s.own.matchingKey, rid) info.npid env.order = some (m', mid) ∧
      cmdLeaveRoom info env s roomId =
        (⟨m', resetMatchingRoomState s.own rid⟩, .noError, some (.room rid)) := by
  cases roomId with
  | none => exact Or.inl ⟨_, rfl⟩
  | some rid =>
    unfold cmdLeaveRoom
    simp only
    cases hleave : leaveRoom s.shared (s.own.matchingKey, rid) info.npid env.order with
    | none => exact Or.inl ⟨_, rfl⟩
    | some left => exact Or.inr ⟨rid, left.1, left.2, rfl, hleave, rfl⟩

/-- No context, no room, not found in the room: nothing is done. -/
theorem cleanupMatchingOnDisconnect_cases (info : ClientInfo) (order : Order ℕ)
    (s : MatchingState) :
    cleanupMatchingOnDisconnect info order s = s ∨
    ∃ m' mid, s.own.initialized = true ∧ s.own.roomId ≠ 0 ∧
      leaveRoom s.shared (s.own.matchingKey, s.own.roomId) info.npid order = some (m', mid) ∧
      cleanupMatchingOnDisconnect info order s =
        ⟨m', resetMatchingRoomState s.own s.own.roomId⟩ := by
  unfold cleanupMatchingOnDisconnect
  split
  · exact Or.inl rfl
  rename_i hinit
  split
  · rename_i hentered
    unfold doLeaveRoom
    cases hleave : leaveRoom s.shared (s.own.matchingKey, s.own.roomId) info.npid order with
    | none => exact Or.inl rfl
    | some left => exact Or.inr ⟨left.1, left.2, by simpa using hinit, hentered, rfl, rfl⟩
  · exact Or.inl rfl

/-- A write is refused, or writes the room. -/
theorem cmdSetRoomDataInternal_cases (info : ClientInfo) (env : MatchingEnv) (s : MatchingState)
    (req : Option SetRoomDataInternalRequest) :
    (∃ e, cmdSetRoomDataInternal info env s req = (s, e, none)) ∨
    ∃ r room setterId, req = some r ∧
      s.shared.rooms.get? (s.own.matchingKey, r.roomId) = some room ∧
      cmdSetRoomDataInternal info env s req =
        (⟨s.shared.setRoom (s.own.matchingKey, r.roomId) (room.setDataInternal r env.now setterId),
          s.own⟩, .noError, some (.room r.roomId)) := by
  cases req with
  | none => exact Or.inl ⟨_, rfl⟩
  | some r =>
    unfold cmdSetRoomDataInternal
    simp only
    cases hroom : s.shared.rooms.get? (s.own.matchingKey, r.roomId) with
    | none => exact Or.inl ⟨_, rfl⟩
    | some room => exact Or.inr ⟨r, room, _, rfl, hroom, rfl⟩

/-- `SetRoomDataExternal` is refused, or writes the data of a room for those outside. -/
theorem cmdSetRoomDataExternal_cases (s : MatchingState) (req : Option SetRoomDataExternalRequest) :
    (∃ e, cmdSetRoomDataExternal s req = (s, e, none)) ∨
    ∃ r room, req = some r ∧ s.shared.rooms.get? (s.own.matchingKey, r.roomId) = some room ∧
      cmdSetRoomDataExternal s req =
        (⟨s.shared.setRoom (s.own.matchingKey, r.roomId) (room.setDataExternal r), s.own⟩,
          .noError, some (.room r.roomId)) := by
  cases req with
  | none => exact Or.inl ⟨_, rfl⟩
  | some r =>
    unfold cmdSetRoomDataExternal
    simp only
    cases hroom : s.shared.rooms.get? (s.own.matchingKey, r.roomId) with
    | none => exact Or.inl ⟨_, rfl⟩
    | some room => exact Or.inr ⟨r, room, rfl, hroom, rfl⟩

namespace RoomSteps

theorem cmdCreateRoom (h : RoomSteps ok P) (hall : AllRooms P s.shared)
    {req : Option CreateRoomRequest} (hok : ∀ r, req = some r → ok r) :
    AllRooms P (cmdCreateRoom info env s req).1.shared := by
  cases req with
  | none => exact hall
  | some r => exact hall.set (h.created (hok r rfl)) insertRoom_rooms

theorem cmdJoinRoom (h : RoomSteps ok P) (hall : AllRooms P s.shared)
    (req : Option JoinRoomRequest) : AllRooms P (cmdJoinRoom info env s req).1.shared := by
  rcases cmdJoinRoom_cases info env s req with
    ⟨hsame, -⟩ | ⟨r, room, _, _, _, -, hroom, hfull, hnew, hshared, -⟩
  · rw [hsame]
    exact hall
  · rw [hshared]
    exact hall.set (h.join (hall _ _ hroom) hfull hnew rfl) rfl

theorem leaveRoom (h : RoomSteps ok P) (hall : AllRooms P m) {npid : String} {order : Order ℕ}
    {mid : ℕ} (hleave : leaveRoom m key npid order = some (m', mid)) : AllRooms P m' := by
  obtain ⟨room, me, hroom, hme, -, ⟨-, hrooms⟩ | ⟨hleft, hrooms⟩⟩ := leaveRoom_cases hleave
  · exact hall.del hrooms
  · exact hall.set (h.leave (hall _ _ hroom) hme hleft) hrooms

theorem cmdLeaveRoom (h : RoomSteps ok P) (hall : AllRooms P s.shared) (roomId : Option ℕ) :
    AllRooms P (cmdLeaveRoom info env s roomId).1.shared := by
  rcases cmdLeaveRoom_cases info env s roomId with ⟨e, heq⟩ | ⟨rid, m', mid, -, hleave, heq⟩
  · rw [heq]
    exact hall
  · rw [heq]
    exact h.leaveRoom hall hleave

theorem cleanup (h : RoomSteps ok P) (hall : AllRooms P s.shared) (order : Order ℕ) :
    AllRooms P (cleanupMatchingOnDisconnect info order s).shared := by
  rcases cleanupMatchingOnDisconnect_cases info order s with heq | ⟨m', mid, -, -, hleave, heq⟩
  · rw [heq]
    exact hall
  · rw [heq]
    exact h.leaveRoom hall hleave

theorem cmdKickoutRoomMember (h : RoomSteps ok P) (hall : AllRooms P s.shared)
    (req : Option KickoutRoomMemberRequest) :
    AllRooms P (cmdKickoutRoomMember info env s req).1.shared := by
  rcases cmdKickoutRoomMember_cases info env s req with
    ⟨e, heq⟩ | ⟨r, room, initiator, target, -, hroom, hini, howner, hself, htarget, heq⟩
  · rw [heq]
    exact hall
  · rw [heq]
    exact hall.set (h.kick (hall _ _ hroom) hini howner hself htarget) rfl

theorem cmdSetRoomDataInternal (h : RoomSteps ok P) (hall : AllRooms P s.shared)
    (req : Option SetRoomDataInternalRequest) :
    AllRooms P (cmdSetRoomDataInternal info env s req).1.shared := by
  rcases cmdSetRoomDataInternal_cases info env s req with
    ⟨e, heq⟩ | ⟨r, room, setterId, -, hroom, heq⟩
  · rw [heq]
    exact hall
  · rw [heq]
    exact hall.set (h.setInternal (hall _ _ hroom)) rfl

theorem cmdSetRoomDataExternal (h : RoomSteps ok P) (hall : AllRooms P s.shared)
    (req : Option SetRoomDataExternalRequest) :
    AllRooms P (cmdSetRoomDataExternal s req).1.shared := by
  rcases cmdSetRoomDataExternal_cases s req with ⟨e, heq⟩ | ⟨r, room, -, hroom, heq⟩
  · rw [heq]
    exact hall
  · rw [heq]
    exact hall.set (h.setExternal (hall _ _ hroom)) rfl

end RoomSteps

/-! ## Commands of the server -/

/-- What a command does to the matching service, if it is a matching command. -/
def Command.onRooms (info : ClientInfo) (env : MatchingEnv) :
    Command → Option (MatchingState → MatchingResult)
  | .createRoom req => some fun s => cmdCreateRoom info env s req
  | .joinRoom req => some fun s => cmdJoinRoom info env s req
  | .leaveRoom roomId => some fun s => cmdLeaveRoom info env s roomId
  | .kickoutRoomMember req => some fun s => cmdKickoutRoomMember info env s req
  | .setRoomDataInternal req => some fun s => cmdSetRoomDataInternal info env s req
  | .setRoomDataExternal req => some fun s => cmdSetRoomDataExternal s req
  | _ => none

variable {sv : Services} {senv : Env} {c : ConnId} {cs : CommandState} {cmd : Command}

/-- Room commands are run on the tables of rooms. -/
theorem dispatch_onRooms {f : MatchingState → MatchingResult}
    (hauth : cs.session.authenticated = true)
    (hf : cmd.onRooms cs.session.info senv.matching = some f) :
    dispatchCommand sv senv c cs cmd = onMatching cs f := by
  unfold dispatchCommand
  rw [if_pos hauth]
  cases cmd <;> simp only [Command.onRooms, reduceCtorEq, Option.some.injEq] at hf <;> subst hf <;> rfl

/-- Other commands leave the matching service alone. -/
structure NoMatching (cs : CommandState) (r : CommandResult) : Prop where
  matching : r.1.shared.matching = cs.shared.matching
  reply : ∀ rep, r.2.2 ≠ some (.matching rep)

theorem cmdLogin_noMatching (req : Option LoginRequest) :
    NoMatching cs (cmdLogin sv senv c cs req) := by
  unfold cmdLogin
  split
  · exact ⟨rfl, nofun⟩
  · exact ⟨rfl, nofun⟩

theorem cmdCreate_noMatching (req : Option RegistrationRequest) :
    NoMatching cs (cmdCreate sv senv cs req) := by
  rcases cmdCreate_cases sv senv cs req with ⟨e, he⟩ | ⟨r, avatarUrl, e, -, -, he⟩
  · rw [he]
    exact ⟨rfl, nofun⟩
  · rw [he]
    exact ⟨rfl, nofun⟩

theorem cmdDelete_noMatching (req : Option (String × String)) :
    NoMatching cs (cmdDelete sv senv cs req) := by
  rcases cmdDelete_cases sv senv cs req with
    ⟨e, he⟩ | ⟨npid, password, user, -, -, -, -, he⟩ | ⟨userId, -, he⟩
  · rw [he]
    exact ⟨rfl, nofun⟩
  · rw [he]
    exact ⟨rfl, nofun⟩
  · rw [he]
    exact ⟨rfl, nofun⟩

theorem usageTouchGame_matching (sh : SharedState) (userId : ℤ) (comId : String) :
    (usageTouchGame sh userId comId).1.matching = sh.matching := by
  rw [usageTouchGame_frame]

/-- **A command** is one on rooms, or leaves them alone. -/
theorem dispatch_cases (sv : Services) (senv : Env) (c : ConnId) (cs : CommandState)
    (cmd : Command) :
    (∃ f, cs.session.authenticated = true ∧
      cmd.onRooms cs.session.info senv.matching = some f ∧
      dispatchCommand sv senv c cs cmd = onMatching cs f) ∨
    NoMatching cs (dispatchCommand sv senv c cs cmd) := by
  unfold dispatchCommand
  by_cases hauth : cs.session.authenticated = true
  · rw [if_pos hauth]
    cases cmd with
    | login req => exact Or.inr (cmdLogin_noMatching req)
    | create req => exact Or.inr (cmdCreate_noMatching req)
    | delete req => exact Or.inr (cmdDelete_noMatching req)
    | setAppearOffline req => cases req <;> exact Or.inr ⟨rfl, nofun⟩
    | contextStart ctxId => cases ctxId <;> exact Or.inr ⟨rfl, nofun⟩
    | contextStop decoded => cases decoded <;> exact Or.inr ⟨rfl, nofun⟩
    | score comId =>
      cases comId with
      | none => exact Or.inr ⟨rfl, nofun⟩
      | some comId => exact Or.inr ⟨usageTouchGame_matching _ _ comId, nofun⟩
    | terminate => exact Or.inr ⟨rfl, nofun⟩
    | friend command npid => exact Or.inr ⟨rfl, nofun⟩
    | other => exact Or.inr ⟨rfl, nofun⟩
    | _ => exact Or.inl ⟨_, hauth, rfl, rfl⟩
  · -- nothing else is dispatched before a login
    rw [if_neg hauth]
    cases cmd with
    | login req => exact Or.inr (cmdLogin_noMatching req)
    | create req => exact Or.inr (cmdCreate_noMatching req)
    | _ => exact Or.inr ⟨rfl, nofun⟩

/-- A disconnect does to the rooms what the cleanup of matching does. -/
theorem cleanupOnDisconnect_matching (session : ClientSession) (sh : SharedState) :
    (cleanupOnDisconnect senv session sh).matching =
      if session.authenticated then (cleanupMatchingOnDisconnect session.info senv.matching.order
        ⟨sh.matching, session.matching⟩).shared else sh.matching := by
  unfold cleanupOnDisconnect usageOnLogout
  cases hauth : session.authenticated with
  | false => rfl
  | true =>
    simp only
    split
    · rename_i h
      cases h
    · split <;> split <;> rfl

/-- What the room requests of an event have to meet. -/
def Event.Creates (ok : CreateRoomRequest → Prop) : Event → Prop
  | .request _ (.createRoom (some req)) _ => ok req
  | _ => True

/-- **Every event** keeps what all commands on a room keep. -/
theorem RoomSteps.step (h : RoomSteps ok P) {sv : Services} {server : Server} {e : Event}
    (hall : AllRooms P server.shared.matching) (hok : e.Creates ok) :
    AllRooms P (server.step sv e).shared.matching := by
  cases e with
  | connect => exact hall
  | request c cmd env =>
    unfold Server.step
    simp only
    cases hc : server.conns.get? c with
    | none => exact hall
    | some session =>
      simp only
      rcases dispatch_cases sv env c ⟨server.db, server.shared, session⟩ cmd with
        ⟨f, -, hf, heq⟩ | hother
      · rw [heq]
        cases cmd <;> simp only [Command.onRooms, reduceCtorEq, Option.some.injEq] at hf <;> subst hf
        case createRoom req => exact h.cmdCreateRoom hall fun r hr => by subst hr; exact hok
        case joinRoom req => exact h.cmdJoinRoom hall req
        case leaveRoom roomId => exact h.cmdLeaveRoom hall roomId
        case kickoutRoomMember req => exact h.cmdKickoutRoomMember hall req
        case setRoomDataInternal req => exact h.cmdSetRoomDataInternal hall req
        case setRoomDataExternal req => exact h.cmdSetRoomDataExternal hall req
      · exact hall.of_rooms (congrArg MatchingSharedState.rooms hother.matching)
  | disconnect c env =>
    unfold Server.step
    simp only
    cases hc : server.live c with
    | none => exact hall
    | some session =>
      simp only [cleanupOnDisconnect_matching]
      split
      · exact h.cleanup (s := ⟨server.shared.matching, session.matching⟩) hall _
      · exact hall

/-- **What the rules keep** holds of every room along a run. -/
theorem RoomSteps.server (h : RoomSteps ok P) {sv : Services} {db : Database} {events : List Event}
    (hok : ∀ e ∈ events, e.Creates ok) (n : ℕ) :
    AllRooms P (serverAfter sv db events n).shared.matching := by
  have hempty : AllRooms P ({ db } : Server).shared.matching := by
    intro key room hroom
    cases hroom
  refine runAt_guard (P := fun server : Server => AllRooms P server.shared.matching)
    (G := fun _ e => e.Creates ok) hempty ?_ ?_ n
  · intro server e hall he
    exact h.step hall he
  · intro k hk
    exact hok _ (List.getElem_mem hk)

/-! ## The rules of the two invariants -/

/-- That members are in order follows the rules. -/
theorem membersOk_rules : RoomRules (fun _ => True) MembersOk where
  created _ := createdRoom_ok.membersOk
  join h _ hnew _ := (join_seats _ _).membersOk (h.add (findByNpid_eq_none.mp hnew))
  leave h _ hleft := h.leave hleft _ _
  kick h _ _ _ _ := (kick_seats _ _ _ _).membersOk (h.remain (dropMember_remain _ _))
  seats h hsame := hsame.membersOk h

/-- Slots stay in order in rooms of at most 64. -/
theorem seated_rules : RoomRules (fun req => req.maxSlots ≤ 64) Seated where
  created hmax := createdRoom_ok.seated (by rw [createdRoom_ok.maxSlot]; split <;> omega)
  join h hfull hnew hflag := Room.join_seated h hfull (findByNpid_eq_none.mp hnew) hflag
  leave h hme hleft := Room.leave_seated h (h.found hme).1 hleft _
  kick h _ howner hself htarget := Room.kick_seated h _ _ htarget (howner ▸ hself)
  seats h hsame := hsame.seated h

/-- **Rooms are well formed.** If no room is created with more than 64 slots, then in every
reachable state every room has at least one member and no more than it has slots, every member
is stored under its own id, no npid occurs twice, the owner is a member, and the owner and no
other member has the owner flag. -/
theorem rooms_ok (sv : Services) (db : Database) (events : List Event)
    (hslots : ∀ c req env, .request c (.createRoom (some req)) env ∈ events → req.maxSlots ≤ 64)
    (n : ℕ) : AllRooms RoomOk (serverAfter sv db events n).shared.matching := by
  have hok : ∀ e ∈ events, e.Creates fun req => req.maxSlots ≤ 64 := by
    intro e he
    unfold Event.Creates
    split
    · exact hslots _ _ _ he
    · trivial
  exact fun key room hroom => (seated_rules.steps.server hok n key room hroom).toRoomOk

/-- Alice creates a room, and Bob joins it. -/
theorem alices_room_ok :
    let events := [.connect, .connect,
      .request 0 (.login (some ⟨"alice", "alice", "", "", "", false⟩)) .plain,
      .request 1 (.login (some ⟨"bob", "bob", "", "", "", false⟩)) .plain,
      .request 0 (.createRoom (some { maxSlots := 4 })) .plain,
      .request 1 (.joinRoom (some { roomId := 1 })) .plain]
    ∃ room, (serverAfter .plain aliceAndBob events 6).shared.matching.rooms.get? ("", 1) =
      some room ∧ room.members.size = 2 ∧ RoomOk room := by
  intro events
  have hroom : ((serverAfter .plain aliceAndBob events 6).shared.matching.rooms.get?
      ("", 1)).map (·.members.size) = some 2 := by decide +kernel
  obtain ⟨room, hroom, hsize⟩ := Option.map_eq_some_iff.mp hroom
  refine ⟨room, hroom, hsize, rooms_ok .plain aliceAndBob events ?_ 6 _ room hroom⟩
  intro c req env hmem
  obtain ⟨-, rfl, -⟩ : c = 0 ∧ req = { maxSlots := 4 } ∧ env = .plain := by simpa [events] using hmem
  decide

end ShadNet
