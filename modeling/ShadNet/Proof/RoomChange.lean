import ShadNet.Proof.RoomIndex
import ShadNet.Spec.RoomEvents

/-!
# Who comes and who goes

* `RoomChange.Makes`: one member of one room comes or goes, and all others stay, at most with a new
  owner.
* `dispatch_change`, `leaveOnDisconnect_change`: what a command and a disconnect do to the members of
  rooms is what `commandChange` and `disconnectChange` tell.
* `disconnect_split`: a disconnect in two parts is a disconnect.
* `mem_details`: the reply to `CreateRoom` or `JoinRoom` lists the members.
-/

namespace ShadNet

open Lib

variable {m m' : MatchingSharedState} {key : RoomKey} {room room' : Room} {mid : ℕ}
  {p p' : RoomMember}

/-! ## Members that stay -/

/-- A member who is still the same, at most made owner since. -/
def RoomMember.Kept (p p' : RoomMember) : Prop :=
  p' = p ∨ p' = { p with flagAttr := p.flagAttr ||| roomMemberFlagOwner }

theorem RoomMember.Kept.refl (p : RoomMember) : p.Kept p := Or.inl rfl

theorem RoomMember.Kept.trans {p'' : RoomMember} (h : p.Kept p') (h' : p'.Kept p'') : p.Kept p'' := by
  rcases h with rfl | rfl
  · exact h'
  · rcases h' with rfl | rfl
    · exact Or.inr rfl
    · -- the flag is set already
      refine Or.inr ?_
      simp only [UInt32.or_assoc, UInt32.or_self]

theorem RoomMember.Kept.memberId (h : p.Kept p') : p'.memberId = p.memberId := by
  rcases h with rfl | rfl <;> rfl

theorem RoomMember.Kept.npid (h : p.Kept p') : p'.npid = p.npid := by
  rcases h with rfl | rfl <;> rfl

/-- A member id has the same member in both rooms, or nobody. -/
structure KeptAt (room room' : Room) (mid : ℕ) : Prop where
  stays : ∀ p, room.members.get? mid = some p → ∃ p', room'.members.get? mid = some p' ∧ p.Kept p'
  stayed : ∀ p', room'.members.get? mid = some p' → ∃ p, room.members.get? mid = some p ∧ p.Kept p'

theorem KeptAt.of_eq (h : room'.members.get? mid = room.members.get? mid) : KeptAt room room' mid :=
  ⟨fun p hp => ⟨p, h.trans hp, .refl p⟩, fun p hp => ⟨p, h.symm.trans hp, .refl p⟩⟩

theorem KeptAt.trans {room'' : Room} (h : KeptAt room room' mid) (h' : KeptAt room' room'' mid) :
    KeptAt room room'' mid := by
  constructor
  · intro p hp
    obtain ⟨p', hp', hkept⟩ := h.stays p hp
    obtain ⟨p'', hp'', hkept'⟩ := h'.stays p' hp'
    exact ⟨p'', hp'', hkept.trans hkept'⟩
  · intro p'' hp''
    obtain ⟨p', hp', hkept'⟩ := h'.stayed p'' hp''
    obtain ⟨p, hp, hkept⟩ := h.stayed p' hp'
    exact ⟨p, hp, hkept.trans hkept'⟩

theorem NewOwner.keptAt (h : NewOwner room room' p) (mid : ℕ) : KeptAt room room' mid := by
  by_cases hmid : mid = room'.ownerMemberId
  · subst hmid
    have hget := h.get? room'.ownerMemberId
    rw [if_pos rfl] at hget
    constructor
    · intro p0 hp0
      obtain rfl := Option.some.inj (h.owner.symm.trans hp0)
      exact ⟨_, hget, Or.inr rfl⟩
    · intro p' hp'
      obtain rfl := Option.some.inj (hget.symm.trans hp')
      exact ⟨p, h.owner, Or.inr rfl⟩
  · refine .of_eq ?_
    rw [h.get?, if_neg hmid]

/-- Those who stay after a leave are kept, one of them perhaps as owner. -/
theorem afterLeave_keptAt (h : MembersOk room) (hsize : 0 < room.members.size) (order : Order ℕ)
    (wasOwner : Bool) (mid : ℕ) : KeptAt room (room.afterLeave order wasOwner) mid := by
  cases wasOwner with
  | false => exact .of_eq rfl
  | true =>
    obtain ⟨o, ho⟩ := afterLeave_true h hsize order
    exact ho.keptAt mid

/-- The ids of the members of a room. -/
def MatchingSharedState.memberIds (m : MatchingSharedState) (key : RoomKey) : List ℕ :=
  ((m.rooms.get? key).map fun room => room.members.keys).getD []

/-- The member ids of a room are those that have members. -/
theorem mem_memberIds (hroom : m.rooms.get? key = some room) :
    mid ∈ m.memberIds key ↔ ∃ p, room.members.get? mid = some p := by
  unfold MatchingSharedState.memberIds
  rw [hroom]
  exact Table.mem_keys_iff

theorem KeptAt.mem_memberIds (h : KeptAt room room' mid) (hroom : m.rooms.get? key = some room)
    (hroom' : m'.rooms.get? key = some room') : mid ∈ m'.memberIds key ↔ mid ∈ m.memberIds key := by
  rw [ShadNet.mem_memberIds hroom, ShadNet.mem_memberIds hroom']
  constructor
  · rintro ⟨p', hp'⟩
    obtain ⟨p, hp, -⟩ := h.stayed p' hp'
    exact ⟨p, hp⟩
  · rintro ⟨p, hp⟩
    obtain ⟨p', hp', -⟩ := h.stays p hp
    exact ⟨p', hp'⟩

/-- A member of the room has the npid. -/
def Room.Has (room : Room) (npid : String) : Prop :=
  ∃ mid p, room.members.get? mid = some p ∧ p.npid = npid

theorem findByNpid_isSome {order : Order ℕ} {npid : String} :
    (room.findByNpid order npid).isSome = true ↔ room.Has npid := by
  rw [Option.isSome_iff_ne_none, ne_eq, findByNpid_eq_none]
  unfold Room.Has
  push Not
  rfl

/-! ## Changes -/

namespace RoomChange

/-- Who has the member id afterwards. -/
def new : RoomChange → Option RoomMember
  | joined _ member => some member
  | _ => none

/-- Who is not told of it. Nobody has the empty npid. -/
def excludeNpid : RoomChange → String
  | joined _ member => member.npid
  | left .. => ""
  | kicked _ _ npid => npid

/-- **One member comes or goes**, and whoever is there before and after is told. -/
structure Makes (ch : RoomChange) (m m' : MatchingSharedState) (room room' : Room) : Prop where
  before : m.rooms.get? ch.key = some room
  after : m'.rooms = m.rooms.set ch.key room'
  next : m'.nextRoomId = m.nextRoomId
  here : room'.members.get? ch.memberId = ch.new
  others : ∀ mid, mid ≠ ch.memberId → KeptAt room room' mid
  told : ∀ npid, npid ≠ "" → room.Has npid → room'.Has npid → ch.excludeNpid ≠ npid

end RoomChange

/-- Nobody comes or goes; a room may be new, or gone. -/
structure NoChange (m m' : MatchingSharedState) : Prop where
  rooms : ∀ key room', m'.rooms.get? key = some room' → m.nextRoomId ≤ key.2 ∨
    ∃ room, m.rooms.get? key = some room ∧ room'.members = room.members
  next : m.nextRoomId ≤ m'.nextRoomId

theorem NoChange.refl (m : MatchingSharedState) : NoChange m m :=
  ⟨fun _ room h => Or.inr ⟨room, h, rfl⟩, le_rfl⟩

/-- A room put back with the same members is no change. -/
theorem NoChange.set (hroom : m.rooms.get? key = some room) (hmembers : room'.members = room.members) :
    NoChange m (m.setRoom key room') := by
  refine ⟨fun key' room'' hget => ?_, le_rfl⟩
  rcases Table.of_get?_set hget with ⟨rfl, rfl⟩ | ⟨-, hold⟩
  · exact Or.inr ⟨room, hroom, hmembers⟩
  · exact Or.inr ⟨room'', hold, rfl⟩

/-- What is told of a step is what it does. -/
def ChangeStep (m m' : MatchingSharedState) : Option RoomChange → Prop
  | none => NoChange m m'
  | some ch => ∃ room room', ch.Makes m m' room room'

theorem ChangeStep.next {change : Option RoomChange} (h : ChangeStep m m' change) :
    m.nextRoomId ≤ m'.nextRoomId := by
  cases change with
  | none => exact NoChange.next h
  | some ch =>
    obtain ⟨room, room', hmakes⟩ := h
    exact hmakes.next.ge

/-- A room with an old id was there before the step. -/
theorem ChangeStep.before {change : Option RoomChange} (h : ChangeStep m m' change)
    (hroom' : m'.rooms.get? key = some room') (hold : key.2 < m.nextRoomId) :
    ∃ room, m.rooms.get? key = some room := by
  cases change with
  | none =>
    rcases NoChange.rooms h key room' hroom' with hnew | ⟨room, hroom, -⟩
    · omega
    · exact ⟨room, hroom⟩
  | some ch =>
    obtain ⟨room, room1, hmakes⟩ := h
    rw [hmakes.after] at hroom'
    rcases Table.of_get?_set hroom' with ⟨rfl, -⟩ | ⟨-, hsame⟩
    · exact ⟨room, hmakes.before⟩
    · exact ⟨room', hsame⟩

/-- **A room that was there before** keeps whoever does not come or go. -/
theorem ChangeStep.keptAt {change : Option RoomChange} (h : ChangeStep m m' change) (mid : ℕ)
    (hroom' : m'.rooms.get? key = some room') (hold : key.2 < m.nextRoomId)
    (hmid : ∀ ch ∈ change, ch.key = key → ch.memberId ≠ mid) :
    ∃ room, m.rooms.get? key = some room ∧ KeptAt room room' mid := by
  cases change with
  | none =>
    rcases NoChange.rooms h key room' hroom' with hnew | ⟨room, hroom, hmembers⟩
    · omega
    · exact ⟨room, hroom, .of_eq (by rw [hmembers])⟩
  | some ch =>
    obtain ⟨room, room1, hmakes⟩ := h
    rw [hmakes.after] at hroom'
    rcases Table.of_get?_set hroom' with ⟨rfl, rfl⟩ | ⟨-, hsame⟩
    · exact ⟨room, hmakes.before, hmakes.others mid (hmid ch rfl rfl).symm⟩
    · exact ⟨room', hsame, .of_eq rfl⟩

/-! ## Commands -/

variable {info : ClientInfo} {env : MatchingEnv} {s : MatchingState}

theorem eraseRoom_nextRoomId : (m.eraseRoom key room).nextRoomId = m.nextRoomId := by
  rw [eraseRoom_eq]

/-- A join changes the rooms as it says. -/
theorem joinChange_step (req : JoinRoomRequest) :
    ChangeStep s.shared (cmdJoinRoom info env s (some req)).1.shared (joinChange info env s req) := by
  unfold joinChange
  rcases cmdJoinRoom_cases info env s (some req) with
    ⟨hsame, hreply, -⟩ | ⟨r, room, _, _, _, hreq, hroom, -, hnew, hshared, -, hreply⟩
  · simp only [hsame, hreply]
    split
    · rename_i hsome
      cases hsome
    · exact NoChange.refl s.shared
  · obtain rfl := Option.some.inj hreq
    simp only [hshared, hreply, hroom]
    have hseats : SameSeats (room.addMember (createJoiner info env req)) _ := join_seats _ _
    have hjoin := hseats.members
    refine ⟨room, _, hroom, rfl, rfl, ?_, ?_, ?_⟩
    · rw [hjoin]
      exact Table.get?_set_self
    · intro mid hmid
      refine .of_eq ?_
      rw [hjoin]
      exact Table.get?_set_ne hmid
    · -- the joiner was not there
      rintro npid - ⟨mid, p, hp, rfl⟩ - heq
      exact findByNpid_eq_none.mp hnew mid p hp heq.symm

/-- A leave changes the rooms as it says. -/
theorem leaveChange_step (hall : AllRooms MembersOk m) {npid : String} {order : Order ℕ} {left : ℕ}
    (h : leaveRoom m key npid order = some (m', left)) :
    ChangeStep m m' (leaveChange m key npid order) := by
  unfold leaveChange
  rw [h]
  obtain ⟨room, me, hroom, hme, rfl, ⟨-, rfl⟩ | ⟨hleft, rfl⟩⟩ := leaveRoom_eq h
  · -- the room is gone
    simp only [eraseRoom_rooms, Table.get?_del_self, Option.isSome_none, Bool.false_eq_true, if_false]
    refine ⟨fun key' room' hget => ?_, by rw [eraseRoom_nextRoomId]⟩
    rw [eraseRoom_rooms] at hget
    exact Or.inr ⟨room', (Table.of_get?_del hget).2, rfl⟩
  · have hsome : ((m.setRoom key ((room.dropMember me.memberId).afterLeave order
        (decide (me.memberId = room.ownerMemberId)))).rooms.get? key).isSome = true := by
      simp [MatchingSharedState.setRoom]
    simp only [hsome, if_true]
    have hdrop := (hall _ _ hroom).remain (dropMember_remain room me.memberId)
    have hkept := afterLeave_keptAt hdrop (dropMember_size_pos hleft) order
      (decide (me.memberId = room.ownerMemberId))
    refine ⟨room, _, hroom, rfl, rfl, ?_, ?_, ?_⟩
    · by_contra hsome
      obtain ⟨p', hp'⟩ := Option.ne_none_iff_exists'.mp hsome
      obtain ⟨p, hp, -⟩ := (hkept me.memberId).stayed p' hp'
      exact (dropMember_get?_some.mp hp).1 rfl
    · intro mid hmid
      exact KeptAt.trans (.of_eq (Table.get?_del_ne hmid)) (hkept mid)
    · intro npid hne _ _ heq
      exact hne heq.symm

/-- `LeaveRoom` changes the rooms as its leave says. -/
theorem cmdLeaveRoom_change (hall : AllRooms MembersOk s.shared) (roomId : ℕ) :
    ChangeStep s.shared (cmdLeaveRoom info env s (some roomId)).1.shared
      (leaveChange s.shared (s.own.matchingKey, roomId) info.npid env.order) := by
  unfold cmdLeaveRoom
  simp only
  split
  · rename_i hleave
    unfold leaveChange
    rw [hleave]
    exact NoChange.refl _
  · rename_i hleave
    exact leaveChange_step hall hleave

/-- A kick changes the rooms as it says. -/
theorem kickChange_step (hall : AllRooms MembersOk s.shared) (req : KickoutRoomMemberRequest) :
    ChangeStep s.shared (cmdKickoutRoomMember info env s (some req)).1.shared
      (kickChange info env s req) := by
  unfold kickChange
  rcases cmdKickoutRoomMember_cases info env s (some req) with
    ⟨e, heq⟩ | ⟨r, room, initiator, target, hreq, hroom, -, -, -, htarget, heq⟩
  · simp only [heq]
    split
    · rename_i hsome
      cases hsome
    · exact NoChange.refl s.shared
  · obtain rfl := Option.some.inj hreq
    rw [heq]
    simp only [hroom, Option.bind_some, htarget]
    have hkick := (kick_seats room target (req.targetMemberId % 2 ^ 16) req.blockKickFlag).members
    refine ⟨room, _, hroom, rfl, rfl, ?_, ?_, ?_⟩
    · rw [hkick]
      exact Table.get?_del_self
    · intro mid hmid
      refine .of_eq ?_
      rw [hkick]
      exact Table.get?_del_ne hmid
    · -- whoever has the npid of the target would be the target, who is not there any more
      rintro npid - - ⟨mid, p, hp, rfl⟩ heq
      rw [hkick] at hp
      obtain ⟨hne, hp⟩ := dropMember_get?_some.mp hp
      exact hne ((hall _ _ hroom).npids _ _ _ _ hp htarget heq.symm)

/-- `CreateRoom` changes no room that was there. -/
theorem cmdCreateRoom_noChange (req : Option CreateRoomRequest) :
    NoChange s.shared (cmdCreateRoom info env s req).1.shared := by
  cases req with
  | none => exact .refl _
  | some req =>
    simp only [cmdCreateRoom]
    refine ⟨fun key room hget => ?_, ?_⟩
    · rw [insertRoom_rooms] at hget
      rcases Table.of_get?_set hget with ⟨rfl, -⟩ | ⟨-, hold⟩
      · exact Or.inl le_rfl
      · exact Or.inr ⟨room, hold, rfl⟩
    · rw [insertRoom_eq]
      exact Nat.le_succ _

/-- `SetRoomDataInternal` moves nobody. -/
theorem cmdSetRoomDataInternal_noChange (req : Option SetRoomDataInternalRequest) :
    NoChange s.shared (cmdSetRoomDataInternal info env s req).1.shared := by
  rcases cmdSetRoomDataInternal_cases info env s req with
    ⟨e, heq⟩ | ⟨r, room, setterId, -, hroom, heq⟩
  · rw [heq]
    exact .refl _
  · rw [heq]
    exact .set hroom (setDataInternal_seats room r _ _).members

/-- `SetRoomDataExternal` moves nobody. -/
theorem cmdSetRoomDataExternal_noChange (req : Option SetRoomDataExternalRequest) :
    NoChange s.shared (cmdSetRoomDataExternal s req).1.shared := by
  rcases cmdSetRoomDataExternal_cases s req with ⟨e, heq⟩ | ⟨r, room, -, hroom, heq⟩
  · rw [heq]
    exact .refl _
  · rw [heq]
    exact .set hroom (setDataExternal_seats room r).members

/-! ## Replies -/

theorem mem_details (h : MembersOk room) (me : RoomMember) :
    mid ∈ (buildCreateJoinResponse room me).members.map (·.memberId) ↔
      ∃ p, room.members.get? mid = some p := by
  simp only [buildCreateJoinResponse, List.mem_map, List.mem_filterMap, List.mem_mergeSort,
    Option.map_eq_some_iff]
  constructor
  · rintro ⟨data, ⟨mid', -, p, hp, rfl⟩, rfl⟩
    have hid := h.stored mid' p hp
    exact ⟨p, (congrArg room.members.get? hid).trans hp⟩
  · rintro ⟨p, hp⟩
    exact ⟨_, ⟨mid, Table.mem_keys_iff.mpr ⟨p, hp⟩, p, hp, rfl⟩, h.stored mid p hp⟩

theorem cmdCreateRoom_reply (info : ClientInfo) (env : MatchingEnv) (s : MatchingState)
    (req : CreateRoomRequest) :
    ∃ rid serverId worldId lobbyId memberId maxSlots flags room me, MembersOk room ∧
      (cmdCreateRoom info env s (some req)).2.2 = some (.createRoom rid serverId worldId lobbyId
        memberId maxSlots flags 1 (buildCreateJoinResponse room me)) ∧
      (cmdCreateRoom info env s (some req)).1.shared.rooms.get? (s.own.matchingKey, rid) =
        some room := by
  refine ⟨_, _, _, _, _, _, _, _, _, createdRoom_ok.membersOk, rfl, ?_⟩
  simp only [cmdCreateRoom]
  rw [insertRoom_rooms]
  exact Table.get?_set_self

variable {sv : Services} {senv : Env} {c : ConnId}

/-- **What a command does to the members of rooms.** -/
theorem dispatch_change (cs : CommandState) (hall : AllRooms MembersOk cs.shared.matching)
    (cmd : Command) :
    ChangeStep cs.shared.matching (dispatchCommand sv senv c cs cmd).1.shared.matching
      (commandChange senv cs cmd) := by
  by_cases hauth : cs.session.authenticated = true
  · unfold commandChange dispatchCommand
    rw [if_pos hauth]
    simp only [hauth, Bool.not_true, Bool.false_eq_true, if_false]
    have hsame {r : CommandResult} (h : NoMatching cs r) :
        NoChange cs.shared.matching r.1.shared.matching := by
      rw [h.matching]
      exact .refl _
    let s : MatchingState := ⟨cs.shared.matching, cs.session.matching⟩
    cases cmd with
    | login req => exact hsame (cmdLogin_noMatching req)
    | create req => exact hsame (cmdCreate_noMatching req)
    | delete req => exact hsame (cmdDelete_noMatching req)
    | setAppearOffline req => cases req <;> exact NoChange.refl _
    | contextStart ctxId => cases ctxId <;> exact NoChange.refl _
    | contextStop decoded => cases decoded <;> exact NoChange.refl _
    | score comId =>
      cases comId with
      | none => exact NoChange.refl _
      | some comId =>
        simp only [usageTouchGame_matching]
        exact NoChange.refl _
    | terminate => exact NoChange.refl _
    | friend command npid => exact NoChange.refl _
    | other => exact NoChange.refl _
    | createRoom req => exact cmdCreateRoom_noChange (s := s) req
    | setRoomDataInternal req => exact cmdSetRoomDataInternal_noChange (s := s) req
    | setRoomDataExternal req => exact cmdSetRoomDataExternal_noChange (s := s) req
    | joinRoom req =>
      cases req with
      | none => exact NoChange.refl _
      | some req => exact joinChange_step (s := s) req
    | kickoutRoomMember req =>
      cases req with
      | none => exact NoChange.refl _
      | some req => exact kickChange_step (s := s) hall req
    | leaveRoom roomId =>
      cases roomId with
      | none => exact NoChange.refl _
      | some roomId => exact cmdLeaveRoom_change (s := s) hall roomId
  · -- nothing is changed before a login
    rcases dispatch_cases sv senv c cs cmd with ⟨f, hauth', -, -⟩ | hother
    · exact absurd hauth' hauth
    · unfold commandChange
      rw [hother.matching]
      simp only [hauth, Bool.not_false, if_true]
      exact NoChange.refl _

/-- A disconnect changes the rooms as it says. -/
theorem leaveOnDisconnect_change {server : Server} (hall : AllRooms MembersOk server.shared.matching)
    (session : ClientSession) :
    ChangeStep server.shared.matching (server.leaveOnDisconnect senv c session).shared.matching
      (disconnectChange senv session server.shared) := by
  unfold Server.leaveOnDisconnect disconnectChange cleanupMatchingOnDisconnect doLeaveRoom
  by_cases hauth : session.authenticated = true
  · by_cases hinit : session.matching.initialized = true
    · by_cases hroom : session.matching.roomId = 0
      · simp only [hauth, hinit, hroom]
        exact NoChange.refl _
      · simp only [hauth, hinit, hroom, if_true, Bool.not_true, Bool.false_eq_true, false_or,
          if_false, ne_eq, not_false_eq_true]
        split
        · rename_i hleave
          unfold leaveChange
          rw [hleave]
          exact NoChange.refl _
        · rename_i hleave
          exact leaveChange_step hall hleave
    · simp only [hauth, hinit]
      exact NoChange.refl _
  · simp only [hauth]
    exact NoChange.refl _

/-- **A disconnect in two parts** does what it does in one. -/
theorem disconnect_split {server : Server} {session : ClientSession}
    (hc : server.live c = some session) :
    (server.leaveOnDisconnect senv c session).cleanupAfterLeave senv c session =
      server.step sv (.disconnect c senv) := by
  unfold Server.leaveOnDisconnect Server.cleanupAfterLeave Server.step
  simp only [hc]
  by_cases hauth : session.authenticated = true
  · simp only [hauth, if_true, cleanupOnDisconnect]
    rfl
  · simp only [hauth, cleanupOnDisconnect]
    rfl

end ShadNet
