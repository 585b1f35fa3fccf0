import ShadNet.Proof.RoomFrame

/-!
# Rooms one by one

A step of the server does something to one room at most, and what it does depends on that room only.

* `RoomOp`, `RoomOp.run`: what may be done to a room, and what comes of it.
* `Server.roomOp`: what an event does, and to which room.
* `step_room`: so every room of the server is a machine of its own.
* `Room.Step.terms`: and none of its steps changes what it was created with.
-/

namespace ShadNet

open Lib

/-- What may be done to a room. -/
inductive RoomOp where
  | create (info : ClientInfo) (env : MatchingEnv) (own : MatchingSessionState)
      (req : CreateRoomRequest)
  | join (info : ClientInfo) (env : MatchingEnv) (req : JoinRoomRequest)
  | leave (npid : String) (order : Order ℕ)
  | kick (info : ClientInfo) (env : MatchingEnv) (req : KickoutRoomMemberRequest)
  | setInternal (info : ClientInfo) (env : MatchingEnv) (req : SetRoomDataInternalRequest)
  | setExternal (req : SetRoomDataExternalRequest)

/-- The room lets the user in. -/
def Room.admits (room : Room) (info : ClientInfo) (env : MatchingEnv) (req : JoinRoomRequest) : Bool :=
  !room.isFull && (room.findByNpid env.order info.npid).isNone && !room.refuses info &&
    !(room.members.inOrder env.order).any fun e => (createJoiner info env req).blocks e.2

/-- Whom the room admits `JoinRoom` lets in, and nobody else. -/
theorem cmdJoinRoom_admits_iff {info : ClientInfo} {env : MatchingEnv} {s : MatchingState}
    {req : JoinRoomRequest} : (cmdJoinRoom info env s (some req)).2.1 = .noError ↔
      ∃ room, s.shared.rooms.get? (s.own.matchingKey, req.roomId) = some room ∧
        room.admits info env req = true := by
  cases hroom : s.shared.rooms.get? (s.own.matchingKey, req.roomId) with
  | none => simp [cmdJoinRoom, hroom]
  | some room =>
    simp only [cmdJoinRoom, hroom, Option.some.injEq, exists_eq_left']
    -- the four checks in the order of the source
    cases hfull : room.isFull with
    | true => simp [Room.admits, hfull]
    | false =>
      cases hnew : room.findByNpid env.order info.npid with
      | some member => simp [Room.admits, hnew]
      | none =>
        cases hrefuses : room.refuses info with
        | true => simp [Room.admits, hrefuses]
        | false =>
          cases hblocks : (room.members.inOrder env.order).any fun e =>
              (createJoiner info env req).blocks e.2 with
          | true => simp [Room.admits, hblocks]
          | false => simp [Room.admits, hfull, hnew, hrefuses, hblocks]

/-- Whom the user may kick out of the room with the request. -/
def Room.kickTarget (room : Room) (info : ClientInfo) (env : MatchingEnv)
    (req : KickoutRoomMemberRequest) : Option RoomMember :=
  (room.findByNpid env.order info.npid).bind fun initiator =>
    if room.ownerMemberId ≠ initiator.memberId ∨ req.targetMemberId % 2 ^ 16 = 0 ∨
      req.targetMemberId % 2 ^ 16 = initiator.memberId then none
    else room.findById (req.targetMemberId % 2 ^ 16)

/-- The room without the member; it goes with the last one. -/
def Room.without (room : Room) (order : Order ℕ) (me : RoomMember) : Option Room :=
  if (room.dropMember me.memberId).isEmpty then none
  else some ((room.dropMember me.memberId).afterLeave order
    (decide (me.memberId = room.ownerMemberId)))

/-- **What becomes of a room** that is there, or is not. -/
def RoomOp.run (rid : ℕ) : RoomOp → Option Room → Option Room
  | .create info env own req, _ => some (createdRoom info env own rid req).1
  | _, none => none
  | .join info env req, some room =>
    some (if room.admits info env req then room.join (createJoiner info env req) else room)
  | .leave npid order, some room =>
    match room.findByNpid order npid with
    | none => some room
    | some me => room.without order me
  | .kick info env req, some room =>
    match room.kickTarget info env req with
    | none => some room
    | some target => some (room.kick target (req.targetMemberId % 2 ^ 16) req.blockKickFlag)
  | .setInternal info env req, some room =>
    let setterId := ((room.findByNpid env.order info.npid).map (·.memberId)).getD 0
    some (room.setDataInternal req env.now setterId)
  | .setExternal req, some room => some (room.setDataExternal req)

/-! ## What an event does -/

/-- The operation on a room that a command is, and the room. -/
def ClientSession.roomOp (session : ClientSession) (nextRoomId : ℕ) (env : MatchingEnv) :
    Command → Option (RoomKey × RoomOp)
  | .createRoom (some req) => some ((session.matching.matchingKey, nextRoomId),
      .create session.info env session.matching req)
  | .joinRoom (some req) =>
    some ((session.matching.matchingKey, req.roomId), .join session.info env req)
  | .leaveRoom (some roomId) =>
    some ((session.matching.matchingKey, roomId), .leave session.info.npid env.order)
  | .kickoutRoomMember (some req) =>
    some ((session.matching.matchingKey, req.roomId), .kick session.info env req)
  | .setRoomDataInternal (some req) =>
    some ((session.matching.matchingKey, req.roomId), .setInternal session.info env req)
  | .setRoomDataExternal (some req) =>
    some ((session.matching.matchingKey, req.roomId), .setExternal req)
  | _ => none

/-- The room that an event is for, and what it does there. -/
def Server.roomOp (s : Server) : Event → Option (RoomKey × RoomOp)
  | .connect => none
  | .request c cmd env => (s.conns.get? c).bind fun session =>
    if session.authenticated then
      session.roomOp s.shared.matching.nextRoomId env.matching cmd
    else none
  | .disconnect c env => (s.live c).bind fun session =>
    if session.authenticated ∧ session.matching.initialized ∧ session.matching.roomId ≠ 0 then
      some ((session.matching.matchingKey, session.matching.roomId),
        .leave session.info.npid env.matching.order)
    else none

/-- The operation of a request is that of its session. -/
theorem roomOp_request {s : Server} {c : ConnId} {session : ClientSession} {cmd : Command} {env : Env}
    (hc : s.conns.get? c = some session) (hauth : session.authenticated = true) :
    s.roomOp (.request c cmd env) = session.roomOp s.shared.matching.nextRoomId env.matching cmd := by
  simp only [Server.roomOp, hc, Option.bind_some, hauth, if_true]

/-- `m'` is `m` after `op` was done to the room under the key. -/
def OpAt (m m' : MatchingSharedState) (key : RoomKey) (op : RoomOp) : Prop :=
  ∀ key', m'.rooms.get? key' =
    if key' = key then op.run key.2 (m.rooms.get? key) else m.rooms.get? key'

/-- The rooms after an operation on one of them, or after none. -/
def OpStep (m m' : MatchingSharedState) : Option (RoomKey × RoomOp) → Prop
  | none => m'.rooms = m.rooms
  | some (key, op) => OpAt m m' key op

variable {m m' : MatchingSharedState} {key : RoomKey} {op : RoomOp} {room room' : Room}

theorem OpAt.same (h : op.run key.2 (m.rooms.get? key) = m.rooms.get? key) : OpAt m m key op := by
  intro key'
  split
  · rename_i heq
    rw [heq, h]
  · rfl

theorem OpAt.set (h : op.run key.2 (m.rooms.get? key) = some room)
    (hr : m'.rooms = m.rooms.set key room) : OpAt m m' key op := by
  intro key'
  rw [hr, Table.get?_set, h]

theorem OpAt.del (h : op.run key.2 (m.rooms.get? key) = none) (hr : m'.rooms = m.rooms.del key) :
    OpAt m m' key op := by
  intro key'
  rw [hr, Table.get?_del, h]

variable {info : ClientInfo} {env : MatchingEnv} {s : MatchingState}

/-- The target of a kick is the member with the id, in 16 bits. -/
theorem kickTarget_get? {target : RoomMember} {req : KickoutRoomMemberRequest}
    (htarget : room.kickTarget info env req = some target) :
    room.members.get? (req.targetMemberId % 2 ^ 16) = some target := by
  obtain ⟨initiator, -, htarget⟩ := Option.bind_eq_some_iff.mp htarget
  split at htarget
  · cases htarget
  · exact htarget

/-- `CreateRoom` creates the room under the next id. -/
theorem cmdCreateRoom_op (req : CreateRoomRequest) :
    OpAt s.shared (cmdCreateRoom info env s (some req)).1.shared
      (s.own.matchingKey, s.shared.nextRoomId) (.create info env s.own req) :=
  .set rfl insertRoom_rooms

/-- `JoinRoom` does a join, or nothing. -/
theorem cmdJoinRoom_op (req : JoinRoomRequest) :
    OpAt s.shared (cmdJoinRoom info env s (some req)).1.shared (s.own.matchingKey, req.roomId)
      (.join info env req) := by
  unfold cmdJoinRoom
  simp only
  cases hroom : s.shared.rooms.get? (s.own.matchingKey, req.roomId) with
  | none => exact .same (by rw [hroom]; rfl)
  | some room =>
    simp only
    -- the room is written if all four checks pass
    have hrun : ∀ admitted, room.admits info env req = admitted →
        (RoomOp.join info env req).run req.roomId (s.shared.rooms.get? (s.own.matchingKey, req.roomId)) =
          some (if admitted then room.join (createJoiner info env req) else room) := by
      rintro admitted rfl
      rw [hroom]
      rfl
    have hrefused (h : room.admits info env req = false) :
        OpAt s.shared s.shared (s.own.matchingKey, req.roomId) (.join info env req) :=
      .same ((hrun false h).trans hroom.symm)
    split
    · rename_i hfull
      exact hrefused (by simp [Room.admits, hfull])
    · rename_i hfull
      split
      · rename_i hnpid
        exact hrefused (by simp [Room.admits, Option.isNone_eq_false_iff.mpr hnpid])
      · rename_i hnpid
        split
        · rename_i hlists
          exact hrefused (by simp [Room.admits, hlists])
        · rename_i hlists
          split
          · rename_i hblocks
            exact hrefused (by simp only [Room.admits, hblocks, Bool.not_true, Bool.and_false])
          · rename_i hblocks
            refine .set (hrun true ?_) rfl
            unfold Room.admits
            rw [Bool.not_eq_true] at hfull hnpid hlists hblocks
            rw [hfull, hlists, hblocks, Option.isSome_eq_false_iff.mp hnpid]
            rfl

theorem leaveRoom_op {npid : String} {order : Order ℕ} (h : leaveRoom m key npid order = none) :
    OpAt m m key (.leave npid order) := by
  refine .same ?_
  unfold leaveRoom at h
  cases hroom : m.rooms.get? key with
  | none => rfl
  | some room =>
    simp only [hroom] at h
    cases hme : room.findByNpid order npid with
    | none => simp only [RoomOp.run, hme]
    | some me =>
      simp only [hme] at h
      split at h <;> cases h

theorem leaveRoom_some_op {npid : String} {order : Order ℕ} {mid : ℕ}
    (h : leaveRoom m key npid order = some (m', mid)) : OpAt m m' key (.leave npid order) := by
  obtain ⟨room, me, hroom, hme, -, ⟨hempty, hrooms⟩ | ⟨hleft, hrooms⟩⟩ := leaveRoom_cases h
  · refine .del ?_ hrooms
    simp only [hroom, RoomOp.run, hme, Room.without, hempty, if_true]
  · refine .set ?_ hrooms
    simp only [hroom, RoomOp.run, hme, Room.without, hleft, Bool.false_eq_true, if_false]

/-- `LeaveRoom` does a leave, or nothing. -/
theorem cmdLeaveRoom_op (roomId : ℕ) :
    OpAt s.shared (cmdLeaveRoom info env s (some roomId)).1.shared (s.own.matchingKey, roomId)
      (.leave info.npid env.order) := by
  unfold cmdLeaveRoom
  simp only
  cases hleave : leaveRoom s.shared (s.own.matchingKey, roomId) info.npid env.order with
  | none => exact leaveRoom_op hleave
  | some left => exact leaveRoom_some_op hleave

theorem cleanupMatchingOnDisconnect_op (order : Order ℕ) :
    OpStep s.shared (cleanupMatchingOnDisconnect info order s).shared
      (if s.own.initialized ∧ s.own.roomId ≠ 0 then
        some ((s.own.matchingKey, s.own.roomId), .leave info.npid order) else none) := by
  unfold cleanupMatchingOnDisconnect
  cases hinit : s.own.initialized with
  | false => simp [OpStep]
  | true =>
    by_cases hroom : s.own.roomId = 0
    · simp [OpStep, hroom]
    · simp only [hroom, Bool.not_true, Bool.false_eq_true, if_false, ne_eq, not_false_eq_true,
        and_self, if_true]
      unfold doLeaveRoom
      cases hleave : leaveRoom s.shared (s.own.matchingKey, s.own.roomId) info.npid order with
      | none => exact leaveRoom_op hleave
      | some left => exact leaveRoom_some_op hleave

/-- A kick request does a kick, or nothing. -/
theorem cmdKickoutRoomMember_op (req : KickoutRoomMemberRequest) :
    OpAt s.shared (cmdKickoutRoomMember info env s (some req)).1.shared
      (s.own.matchingKey, req.roomId) (.kick info env req) := by
  unfold cmdKickoutRoomMember
  simp only
  cases hroom : s.shared.rooms.get? (s.own.matchingKey, req.roomId) with
  | none => exact .same (by rw [hroom]; rfl)
  | some room =>
    simp only
    -- the room is written if there is somebody to be kicked
    have hrun : ∀ target, room.kickTarget info env req = target →
        (RoomOp.kick info env req).run req.roomId (s.shared.rooms.get? (s.own.matchingKey, req.roomId)) =
          match target with
          | none => some room
          | some target => some (room.kick target (req.targetMemberId % 2 ^ 16) req.blockKickFlag) := by
      rintro target rfl
      rw [hroom]
      rfl
    have hrefused (h : room.kickTarget info env req = none) :
        OpAt s.shared s.shared (s.own.matchingKey, req.roomId) (.kick info env req) :=
      .same ((hrun none h).trans hroom.symm)
    cases hini : room.findByNpid env.order info.npid with
    | none => exact hrefused (by simp [Room.kickTarget, hini])
    | some initiator =>
      simp only
      split
      · rename_i howner
        exact hrefused (by simp [Room.kickTarget, hini, howner])
      · rename_i howner
        split
        · rename_i hself
          refine hrefused ?_
          simp only [Room.kickTarget, hini, Option.bind_some]
          rw [if_pos (Or.inr hself)]
        · rename_i hself
          have htarget : room.kickTarget info env req =
              room.findById (req.targetMemberId % 2 ^ 16) := by
            simp only [Room.kickTarget, hini, Option.bind_some]
            rw [if_neg (by simp only [howner, hself, or_self, not_false_eq_true])]
          cases hfind : room.findById (req.targetMemberId % 2 ^ 16) with
          | none => exact hrefused (htarget.trans hfind)
          | some target => exact .set (hrun (some target) (htarget.trans hfind)) rfl

/-- `SetRoomDataInternal` writes to the one room. -/
theorem cmdSetRoomDataInternal_op (req : SetRoomDataInternalRequest) :
    OpAt s.shared (cmdSetRoomDataInternal info env s (some req)).1.shared
      (s.own.matchingKey, req.roomId) (.setInternal info env req) := by
  unfold cmdSetRoomDataInternal
  simp only
  cases hroom : s.shared.rooms.get? (s.own.matchingKey, req.roomId) with
  | none => exact .same (by rw [hroom]; rfl)
  | some room => exact .set (by rw [hroom]; rfl) rfl

theorem cmdSetRoomDataExternal_op (req : SetRoomDataExternalRequest) :
    OpAt s.shared (cmdSetRoomDataExternal s (some req)).1.shared (s.own.matchingKey, req.roomId)
      (.setExternal req) := by
  unfold cmdSetRoomDataExternal
  simp only
  cases hroom : s.shared.rooms.get? (s.own.matchingKey, req.roomId) with
  | none => exact .same (by rw [hroom]; rfl)
  | some room => exact .set (by rw [hroom]; rfl) rfl

/-! ## The server -/

variable {sv : Services} {senv : Env} {c : ConnId} {cs : CommandState}

theorem dispatch_op (hauth : cs.session.authenticated = true) (cmd : Command) :
    OpStep cs.shared.matching (dispatchCommand sv senv c cs cmd).1.shared.matching
      (cs.session.roomOp cs.shared.matching.nextRoomId senv.matching cmd) := by
  let s : MatchingState := ⟨cs.shared.matching, cs.session.matching⟩
  cases hf : cmd.onRooms cs.session.info senv.matching with
  | none =>
    have hnone : cs.session.roomOp cs.shared.matching.nextRoomId senv.matching cmd = none := by
      cases cmd <;> first | rfl | cases hf
    rw [hnone]
    rcases dispatch_cases sv senv c cs cmd with ⟨f, -, hf', -⟩ | hother
    · rw [hf] at hf'
      cases hf'
    · exact congrArg MatchingSharedState.rooms hother.matching
  | some f =>
    rw [dispatch_onRooms hauth hf]
    cases cmd <;> simp only [Command.onRooms, reduceCtorEq, Option.some.injEq] at hf <;> subst hf
    case createRoom req =>
      cases req with
      | none => exact rfl
      | some req => exact cmdCreateRoom_op (s := s) req
    case joinRoom req =>
      cases req with
      | none => exact rfl
      | some req => exact cmdJoinRoom_op (s := s) req
    case leaveRoom roomId =>
      cases roomId with
      | none => exact rfl
      | some roomId => exact cmdLeaveRoom_op (s := s) roomId
    case kickoutRoomMember req =>
      cases req with
      | none => exact rfl
      | some req => exact cmdKickoutRoomMember_op (s := s) req
    case setRoomDataInternal req =>
      cases req with
      | none => exact rfl
      | some req => exact cmdSetRoomDataInternal_op (s := s) req
    case setRoomDataExternal req =>
      cases req with
      | none => exact rfl
      | some req => exact cmdSetRoomDataExternal_op (s := s) req

/-- **What a step does to the rooms.** -/
theorem step_op (sv : Services) (server : Server) (e : Event) :
    OpStep server.shared.matching (server.step sv e).shared.matching (server.roomOp e) := by
  cases e with
  | connect => exact rfl
  | request c cmd env =>
    unfold Server.step Server.roomOp
    simp only
    cases hc : server.conns.get? c with
    | none => exact rfl
    | some session =>
      simp only [Option.bind_some]
      by_cases hauth : session.authenticated = true
      · rw [if_pos hauth]
        have hop : OpStep server.shared.matching
            (dispatchCommand sv env c ⟨server.db, server.shared, session⟩ cmd).1.shared.matching _ :=
          dispatch_op hauth cmd
        exact hop
      · -- nothing is done to rooms before a login
        rw [if_neg hauth]
        rcases dispatch_cases sv env c ⟨server.db, server.shared, session⟩ cmd with
          ⟨f, hauth', -, -⟩ | hother
        · exact absurd hauth' hauth
        · exact congrArg MatchingSharedState.rooms hother.matching
  | disconnect c env =>
    unfold Server.step Server.roomOp
    simp only
    cases hc : server.live c with
    | none => exact rfl
    | some session =>
      simp only [Option.bind_some, cleanupOnDisconnect_matching]
      cases session.authenticated with
      | false => simp [OpStep]
      | true =>
        have hop : OpStep server.shared.matching (cleanupMatchingOnDisconnect session.info
            env.matching.order ⟨server.shared.matching, session.matching⟩).shared _ :=
          cleanupMatchingOnDisconnect_op env.matching.order
        simpa using hop

/-- **Every room is a machine of its own.** -/
theorem step_room (sv : Services) (server : Server) (e : Event) (key : RoomKey) :
    (server.step sv e).shared.matching.rooms.get? key =
      match server.roomOp e with
      | some (key', op) =>
        if key = key' then op.run key'.2 (server.shared.matching.rooms.get? key')
        else server.shared.matching.rooms.get? key
      | none => server.shared.matching.rooms.get? key := by
  have hstep := step_op sv server e
  cases hop : server.roomOp e with
  | none =>
    rw [hop] at hstep
    exact congrArg (fun rooms => rooms.get? key) hstep
  | some target =>
    rw [hop] at hstep
    exact hstep key

/-- **One room at a time.** If what is done to a room keeps `P` exactly when `G` holds, so does what an
event does to all rooms. -/
theorem allRooms_step_iff {P : Room → Prop} {G : RoomOp → Option Room → Prop} {server : Server}
    {e : Event} (hall : AllRooms P server.shared.matching)
    (hrun : ∀ key op, (∀ room', op.run key.2 (server.shared.matching.rooms.get? key) = some room' →
      P room') ↔ G op (server.shared.matching.rooms.get? key)) :
    AllRooms P (server.step sv e).shared.matching ↔ ∀ key op, server.roomOp e = some (key, op) →
      G op (server.shared.matching.rooms.get? key) := by
  constructor
  · intro h key op hop
    refine (hrun key op).mp fun room' hroom' => h key room' ?_
    rw [step_room, hop]
    simpa using hroom'
  · intro hG key room' hroom'
    rw [step_room] at hroom'
    cases hop : server.roomOp e with
    | none =>
      rw [hop] at hroom'
      exact hall key room' hroom'
    | some target =>
      obtain ⟨key', op⟩ := target
      simp only [hop] at hroom'
      split at hroom'
      · exact (hrun key' op).mpr (hG key' op hop) room' hroom'
      · exact hall key room' hroom'

/-! ## Steps of a room -/

/-- **What a room may become** in one step. -/
inductive Room.Step (room : Room) : RoomOp → Room → Prop
  | idle (op : RoomOp) : Step room op room
  | join {info : ClientInfo} {env : MatchingEnv} {req : JoinRoomRequest} :
    room.admits info env req = true →
    Step room (.join info env req) (room.join (createJoiner info env req))
  | leave {npid : String} {order : Order ℕ} {me : RoomMember} :
    room.findByNpid order npid = some me → (room.dropMember me.memberId).isEmpty = false →
    Step room (.leave npid order) ((room.dropMember me.memberId).afterLeave order
      (decide (me.memberId = room.ownerMemberId)))
  | kick {info : ClientInfo} {env : MatchingEnv} {req : KickoutRoomMemberRequest}
      {target : RoomMember} : room.kickTarget info env req = some target →
    Step room (.kick info env req)
      (room.kick target (req.targetMemberId % 2 ^ 16) req.blockKickFlag)
  | setInternal (info : ClientInfo) (env : MatchingEnv) (req : SetRoomDataInternalRequest)
      (setterId : ℕ) :
    Step room (.setInternal info env req) (room.setDataInternal req env.now setterId)
  | setExternal (req : SetRoomDataExternalRequest) :
    Step room (.setExternal req) (room.setDataExternal req)

theorem RoomOp.run_step {rid : ℕ} (h : op.run rid (some room) = some room') :
    room.Step op room' ∨ ∃ info env own req, op = .create info env own req ∧
      room' = (createdRoom info env own rid req).1 := by
  cases op with
  | create info env own req => exact Or.inr ⟨info, env, own, req, rfl, (Option.some.inj h).symm⟩
  | join info env req =>
    obtain rfl := Option.some.inj h
    refine Or.inl ?_
    split
    · exact .join ‹_›
    · exact .idle _
  | leave npid order =>
    simp only [RoomOp.run] at h
    refine Or.inl ?_
    split at h
    · obtain rfl := Option.some.inj h
      exact .idle _
    · rename_i me hme
      unfold Room.without at h
      split at h
      · cases h
      · rename_i hleft
        obtain rfl := Option.some.inj h
        exact .leave hme (by simpa using hleft)
  | kick info env req =>
    simp only [RoomOp.run] at h
    refine Or.inl ?_
    split at h
    · obtain rfl := Option.some.inj h
      exact .idle _
    · rename_i target htarget
      obtain rfl := Option.some.inj h
      exact .kick htarget
  | setInternal info env req =>
    obtain rfl := Option.some.inj h
    exact Or.inl (.setInternal ..)
  | setExternal req =>
    obtain rfl := Option.some.inj h
    exact Or.inl (.setExternal _)

/-- **Where a room comes from**: it was there and has taken at most one step, or it is new. -/
theorem step_room_cases {server : Server} {e : Event}
    (h : (server.step sv e).shared.matching.rooms.get? key = some room') :
    (∃ room, server.shared.matching.rooms.get? key = some room ∧
      (room' = room ∨ ∃ op, server.roomOp e = some (key, op) ∧ room.Step op room')) ∨
    ∃ info env own req, server.roomOp e = some (key, .create info env own req) ∧
      room' = (createdRoom info env own key.2 req).1 := by
  rw [step_room] at h
  cases hop : server.roomOp e with
  | none =>
    rw [hop] at h
    exact Or.inl ⟨room', h, Or.inl rfl⟩
  | some target =>
    obtain ⟨key', op⟩ := target
    simp only [hop] at h
    split at h
    · rename_i heq
      subst heq
      cases hroom : server.shared.matching.rooms.get? key with
      | some room =>
        rw [hroom] at h
        rcases RoomOp.run_step h with hstep | ⟨info, env, own, req, rfl, rfl⟩
        · exact Or.inl ⟨room, rfl, Or.inr ⟨op, rfl, hstep⟩⟩
        · exact Or.inr ⟨info, env, own, req, rfl, rfl⟩
      | none =>
        rw [hroom] at h
        cases op <;> simp only [RoomOp.run, reduceCtorEq, Option.some.injEq] at h
        case create info env own req => exact Or.inr ⟨info, env, own, req, rfl, h.symm⟩
    · exact Or.inl ⟨room', h, Or.inl rfl⟩

/-- What only `CreateRoom` sets. -/
structure SameTerms (room room' : Room) : Prop where
  maxSlot : room'.maxSlot = room.maxSlot
  groups : room'.groups = room.groups
  allowedUsers : room'.allowedUsers = room.allowedUsers
  allowedAccountIds : room'.allowedAccountIds = room.allowedAccountIds
  blockedAccountIds : room'.blockedAccountIds = room.blockedAccountIds

theorem join_terms (room : Room) (joiner : RoomMember) : SameTerms room (room.join joiner) := by
  unfold Room.join
  simp only
  split <;> exact ⟨rfl, rfl, rfl, rfl, rfl⟩

theorem afterLeave_terms (room : Room) (mid : ℕ) (order : Order ℕ) (wasOwner : Bool) :
    SameTerms room ((room.dropMember mid).afterLeave order wasOwner) := by
  obtain ⟨_, _, _, heq⟩ := afterLeave_eq (room.dropMember mid) order wasOwner
  rw [heq]
  exact ⟨rfl, rfl, rfl, rfl, rfl⟩

theorem kick_terms (room : Room) (target : RoomMember) (mid flag : ℕ) :
    SameTerms room (room.kick target mid flag) := by
  unfold Room.kick
  simp only
  split <;> exact ⟨rfl, rfl, rfl, rfl, rfl⟩

theorem setDataInternal_terms (room : Room) (req : SetRoomDataInternalRequest) (now setterId : ℕ) :
    SameTerms room (room.setDataInternal req now setterId) := by
  rw [setDataInternal_eq]
  split <;> exact ⟨rfl, rfl, rfl, rfl, rfl⟩

theorem setDataExternal_terms (room : Room) (req : SetRoomDataExternalRequest) :
    SameTerms room (room.setDataExternal req) := by
  rw [setDataExternal_eq]
  exact ⟨rfl, rfl, rfl, rfl, rfl⟩

/-- **A room keeps its terms** whatever is done to it. -/
theorem Room.Step.terms (h : room.Step op room') : SameTerms room room' := by
  cases h with
  | idle => exact ⟨rfl, rfl, rfl, rfl, rfl⟩
  | join => exact join_terms _ _
  | leave => exact afterLeave_terms _ _ _ _
  | kick => exact kick_terms _ _ _ _
  | setInternal => exact setDataInternal_terms _ _ _ _
  | setExternal => exact setDataExternal_terms _ _

variable {P : Room → Prop}

/-- What holds of new rooms and is kept by the steps of the rooms that are there is kept by the steps
of the server. -/
theorem Room.Step.server {server : Server} {e : Event} (hall : AllRooms P server.shared.matching)
    (hcreated : ∀ key info env own req, server.roomOp e = some (key, .create info env own req) →
      P (createdRoom info env own key.2 req).1)
    (hstep : ∀ {key room op room'}, server.shared.matching.rooms.get? key = some room → P room →
      room.Step op room' → P room') : AllRooms P (server.step sv e).shared.matching := by
  intro key room' hroom'
  rcases step_room_cases hroom' with
    ⟨room, hroom, rfl | ⟨op, -, hroomStep⟩⟩ | ⟨info, env, own, req, hop, rfl⟩
  · exact hall key _ hroom
  · exact hstep hroom (hall key room hroom) hroomStep
  · exact hcreated key info env own req hop

end ShadNet
