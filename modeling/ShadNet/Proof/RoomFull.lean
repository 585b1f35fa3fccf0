import ShadNet.Proof.RoomStep

/-!
# Full rooms

A flag of a room tells that it is full.

* `capacity_rules`: rooms have a member, and no more than they have slots.
* `flagged_steps`: the flag is up exactly in full rooms that have two slots at least.
* `full_flags_ok_iff`: so the flag is right along a run exactly when nobody creates a room of one slot.
-/

namespace ShadNet

open Lib

variable {room room' : Room} {mid : ℕ} {m : RoomMember}

/-! ## Capacity -/

/-- What the flag for a full room rests on. -/
structure Capacity (room : Room) : Prop extends MembersOk room where
  nonempty : 0 < room.members.size
  size_le : room.members.size ≤ room.maxSlot
  maxSlot_lt : room.maxSlot < 2 ^ 16

/-- A join into a room that is not full keeps it within its slots. -/
theorem Capacity.join (h : Capacity room) {joiner : RoomMember} (hfull : room.isFull = false)
    (hnew : ∀ mid m, room.members.get? mid = some m → m.npid ≠ joiner.npid) :
    Capacity (room.join joiner) := by
  have hseats := join_seats room joiner
  have hlt : room.members.size < room.maxSlot := by simpa [Room.isFull] using hfull
  have hget : (room.addMember joiner).members.get? room.allocMemberId = _ := addMember_get? joiner
  rw [if_pos rfl] at hget
  refine ⟨hseats.membersOk (h.toMembersOk.add hnew), ?_, ?_, hseats.maxSlot ▸ h.maxSlot_lt⟩
  · rw [hseats.members]
    exact Table.size_pos_of_some hget
  · -- there is one member more, or one in the place of another
    rw [hseats.members, hseats.maxSlot]
    change (room.members.set _ _).size ≤ room.maxSlot
    cases hold : room.members.get? room.allocMemberId with
    | none => rw [Table.size_set_of_none hold]; omega
    | some m => rw [Table.size_set_of_some hold]; omega

theorem Capacity.kick (h : Capacity room) {initiator target : RoomMember} {flag : ℕ}
    (hini : room.members.get? initiator.memberId = some initiator) (hne : mid ≠ initiator.memberId)
    (htarget : room.members.get? mid = some m) : Capacity (room.kick target mid flag) := by
  have hseats := kick_seats room target mid flag
  have hstays := dropMember_get?_some.mpr ⟨Ne.symm hne, hini⟩
  have hsize := dropMember_size htarget
  have hle := h.size_le
  refine ⟨hseats.membersOk (h.toMembersOk.remain (dropMember_remain _ _)), ?_, ?_,
    hseats.maxSlot ▸ h.maxSlot_lt⟩
  · rw [hseats.members]
    exact Table.size_pos_of_some hstays
  · rw [hseats.members, hseats.maxSlot]
    change _ ≤ room.maxSlot
    omega

theorem afterLeave_size (room : Room) (order : Order ℕ) (wasOwner : Bool) :
    (room.afterLeave order wasOwner).members.size = room.members.size := by
  cases wasOwner with
  | false => rfl
  | true => exact Table.size_modify

/-- Every command keeps rooms within their slots. -/
theorem capacity_rules : RoomRules (fun _ => True) Capacity where
  created _ := by
    refine ⟨createdRoom_ok.membersOk, ?_, ?_, ?_⟩
    · rw [createdRoom_ok.size]
      exact Nat.one_pos
    · rw [createdRoom_ok.size, createdRoom_ok.maxSlot]
      split <;> omega
    · rw [createdRoom_ok.maxSlot]
      split <;> omega
  join h hfull hnew _ := h.join hfull (findByNpid_eq_none.mp hnew)
  leave {room order npid m} h hme hleft := by
    have hsize := dropMember_size (h.found hme).1
    have hpos := dropMember_size_pos hleft
    have hle := h.size_le
    refine ⟨h.toMembersOk.leave hleft _ _, ?_, ?_, ?_⟩
    · rwa [afterLeave_size]
    · rw [afterLeave_size, afterLeave_maxSlot]
      change _ ≤ room.maxSlot
      omega
    · rw [afterLeave_maxSlot]
      exact h.maxSlot_lt
  kick h hini howner hself htarget := h.kick (h.found hini).1 hself htarget
  seats h hsame :=
    ⟨hsame.membersOk h.toMembersOk, hsame.members ▸ h.nonempty,
      hsame.members ▸ hsame.maxSlot ▸ h.size_le, hsame.maxSlot ▸ h.maxSlot_lt⟩

/-! ## The flag -/

/-- The room is said to be full. -/
def Room.FlaggedFull (room : Room) : Prop := room.flagAttr &&& roomFlagFull ≠ 0

/-- **The room is said to be full** exactly when it is. -/
def Room.FlagOk (room : Room) : Prop := room.FlaggedFull ↔ room.isFull = true

theorem isFull_iff : room.isFull = true ↔ room.maxSlot ≤ room.members.size := decide_eq_true_iff

/-- The flag is off once it is cleared. -/
theorem clear_full (flags : UInt32) : (flags &&& ~~~roomFlagFull) &&& roomFlagFull = 0 := by
  rw [UInt32.and_assoc, UInt32.and_comm (~~~roomFlagFull)]
  simp

/-- The flag is on once it is set. -/
theorem set_full (flags : UInt32) : (flags ||| roomFlagFull) &&& roomFlagFull ≠ 0 := by
  rw [or_and_flag]
  decide

/-- `SetRoomDataInternal` does not touch the flag. -/
theorem flags_full (req : SetRoomDataInternalRequest) (flags : UInt32) :
    req.flags flags &&& roomFlagFull = flags &&& roomFlagFull := by
  unfold SetRoomDataInternalRequest.flags
  simp only [← UInt32.toBitVec_inj, BitVec.eq_of_getLsbD_eq_iff]
  intro i hi
  simp
  grind

theorem afterLeave_flagAttr (room : Room) (order : Order ℕ) (wasOwner : Bool) :
    (room.afterLeave order wasOwner).flagAttr = room.flagAttr &&& ~~~roomFlagFull := by
  obtain ⟨_, _, _, heq⟩ := afterLeave_eq room order wasOwner
  rw [heq]

theorem kick_flagAttr (room : Room) (target : RoomMember) (mid flag : ℕ) :
    (room.kick target mid flag).flagAttr = room.flagAttr &&& ~~~roomFlagFull := by
  unfold Room.kick
  split <;> rfl

/-- The flag is up in full rooms that have two slots at least. -/
structure Flagged (room : Room) : Prop extends Capacity room where
  flag : room.FlaggedFull ↔ room.isFull = true ∧ 2 ≤ room.maxSlot

/-- The flag is down, and a slot is free. -/
theorem Capacity.flagged (h : Capacity room) (hdown : room.flagAttr &&& roomFlagFull = 0)
    (hfree : room.members.size < room.maxSlot) : Flagged room := by
  refine ⟨h, iff_of_false (fun hup => hup hdown) ?_⟩
  rw [isFull_iff]
  omega

/-- A join sets the flag if the count of members, in 16 bits, has reached the slots. -/
theorem join_flagAttr (room : Room) (joiner : RoomMember) : (room.join joiner).flagAttr =
    if room.maxSlot ≤ (room.join joiner).members.size % 2 ^ 16 then room.flagAttr ||| roomFlagFull
    else room.flagAttr := by
  rw [(join_seats _ joiner).members]
  unfold Room.join
  simp only
  split
  · rename_i hfull
    exact (if_pos hfull).symm
  · rename_i hfree
    exact (if_neg hfree).symm

/-- A join keeps the flag right. -/
theorem Flagged.join (h : Flagged room) {joiner : RoomMember} (hfull : room.isFull = false)
    (hnew : ∀ mid m, room.members.get? mid = some m → m.npid ≠ joiner.npid) :
    Flagged (room.join joiner) := by
  have hcap := h.toCapacity.join hfull hnew
  have hlt : room.members.size < room.maxSlot := by simpa [Room.isFull] using hfull
  have hpos := h.nonempty
  have hle := hcap.size_le
  have hmax := hcap.maxSlot_lt
  have hsame := (join_terms room joiner).maxSlot
  refine ⟨hcap, ?_⟩
  rw [hsame] at hle hmax
  -- the cast of the size to 16 bits loses nothing
  have hcast : (room.join joiner).members.size % 2 ^ 16 = (room.join joiner).members.size :=
    Nat.mod_eq_of_lt (by omega)
  rw [isFull_iff, hsame, Room.FlaggedFull, join_flagAttr, hcast]
  split
  · rename_i hlast
    exact iff_of_true (set_full _) ⟨hlast, by omega⟩
  · rename_i hmore
    -- the flag was down before
    refine iff_of_false (fun hup => ?_) fun hnow => hmore hnow.1
    have := (h.flag.mp hup).1
    rw [hfull] at this
    cases this

/-- Every command keeps the flag right. -/
theorem flagged_steps : RoomSteps (fun _ => True) Flagged where
  created {info env own rid req} _ := by
    have hok : JustCreated info req (createdRoom info env own rid req).1
      (createdRoom info env own rid req).2 := createdRoom_ok
    refine ⟨capacity_rules.created trivial, iff_of_false (fun hup => hup ?_) ?_⟩
    · rw [createdRoom_takesOver.flags]
      exact clear_full _
    · rw [isFull_iff, hok.size]
      omega
  join h hfull hnew _ := h.join hfull (findByNpid_eq_none.mp hnew)
  leave {room order npid m} h hme hleft := by
    refine (capacity_rules.leave h.toCapacity hme hleft).flagged ?_ ?_
    · rw [afterLeave_flagAttr]
      exact clear_full _
    · have hsize := dropMember_size (h.found hme).1
      have hpos := dropMember_size_pos hleft
      have hle := h.size_le
      rw [afterLeave_size, afterLeave_maxSlot]
      change _ < room.maxSlot
      omega
  kick {room order npid initiator mid target flag} h hini howner hself htarget := by
    have hseats := kick_seats room target mid flag
    refine (capacity_rules.kick h.toCapacity hini howner hself htarget).flagged ?_ ?_
    · rw [kick_flagAttr]
      exact clear_full _
    · have hsize := dropMember_size htarget
      have hpos := h.nonempty
      have hle := h.size_le
      rw [hseats.members, hseats.maxSlot]
      change _ < room.maxSlot
      omega
  setInternal {room req now setterId} h := by
    have hseats := setDataInternal_seats room req now setterId
    have hflags : (room.setDataInternal req now setterId).flagAttr = req.flags room.flagAttr := by
      rw [setDataInternal_eq]
      simp only
      split <;> rfl
    refine ⟨capacity_rules.seats h.toCapacity hseats, ?_⟩
    rw [Room.FlaggedFull, hflags, flags_full, isFull_iff, hseats.members, hseats.maxSlot, ← isFull_iff]
    exact h.flag
  setExternal {room req} h := by
    have hseats := setDataExternal_seats room req
    have hflags : (room.setDataExternal req).flagAttr = room.flagAttr := by
      rw [setDataExternal_eq]
    refine ⟨capacity_rules.seats h.toCapacity hseats, ?_⟩
    rw [Room.FlaggedFull, hflags, isFull_iff, hseats.members, hseats.maxSlot, ← isFull_iff]
    exact h.flag

/-- A room of one slot is always full. -/
theorem Flagged.flagOk_iff (h : Flagged room) : room.FlagOk ↔ 2 ≤ room.maxSlot := by
  unfold Room.FlagOk
  rw [h.flag, isFull_iff]
  have hpos := h.nonempty
  constructor
  · intro hiff
    by_contra hone
    exact hone (hiff.mpr (by omega)).2
  · intro htwo
    exact and_iff_left htwo

/-! ## Replies -/

/-- What a reply says of the flags of a room, with the room's id. -/
def MatchingReply.flagsTold : MatchingReply → List (ℕ × UInt32)
  | .createRoom roomId _ _ _ _ _ flags _ details =>
    [(roomId, flags), (roomId, details.roomData.flags)]
  | .joinRoom roomId _ _ flags _ details => [(roomId, flags), (roomId, details.roomData.flags)]
  | .room _ => []

variable {info : ClientInfo} {env : MatchingEnv} {s : MatchingState} {reply : MatchingReply}

/-- The flags in the reply of `CreateRoom` are those of the room. -/
theorem cmdCreateRoom_told {req : Option CreateRoomRequest}
    (h : (cmdCreateRoom info env s req).2.2 = some reply) :
    ∀ told ∈ reply.flagsTold, ∃ room, (cmdCreateRoom info env s req).1.shared.rooms.get?
      (s.own.matchingKey, told.1) = some room ∧ told.2 = room.flagAttr := by
  cases req with
  | none => cases h
  | some req =>
    simp only [cmdCreateRoom, Option.some.injEq] at h ⊢
    subst h
    rw [insertRoom_rooms]
    intro told htold
    simp only [MatchingReply.flagsTold, List.mem_cons, List.not_mem_nil, or_false] at htold
    rcases htold with rfl | rfl <;> exact ⟨_, Table.get?_set_self, rfl⟩

/-- The flags in the reply of `JoinRoom` are those of the room. -/
theorem cmdJoinRoom_told {req : Option JoinRoomRequest}
    (h : (cmdJoinRoom info env s req).2.2 = some reply) :
    ∀ told ∈ reply.flagsTold, ∃ room, (cmdJoinRoom info env s req).1.shared.rooms.get?
      (s.own.matchingKey, told.1) = some room ∧ told.2 = room.flagAttr := by
  cases req with
  | none => cases h
  | some req =>
    unfold cmdJoinRoom at h ⊢
    simp only at h ⊢
    split
    · rename_i hroom
      simp only [hroom, reduceCtorEq] at h
    · rename_i hroom
      simp only [hroom] at h
      -- only one that is let in is told flags
      split_ifs at h ⊢
      obtain rfl := Option.some.inj h
      intro told htold
      simp only [MatchingReply.flagsTold, List.mem_cons, List.not_mem_nil, or_false] at htold
      rcases htold with rfl | rfl <;> exact ⟨_, Table.get?_set_self, rfl⟩

variable {sv : Services} {senv : Env} {c : ConnId} {cs : CommandState}

/-- **What clients are told** are the flags that the room has after the command. -/
theorem dispatch_told {cmd : Command}
    (h : (dispatchCommand sv senv c cs cmd).2.2 = some (.matching reply)) :
    ∀ told ∈ reply.flagsTold, ∃ room,
      (dispatchCommand sv senv c cs cmd).1.shared.matching.rooms.get?
        (cs.session.matching.matchingKey, told.1) = some room ∧ told.2 = room.flagAttr := by
  rcases dispatch_cases sv senv c cs cmd with ⟨f, -, hf, heq⟩ | hother
  · rw [heq] at h ⊢
    obtain ⟨reply', hreply, hmatching⟩ := Option.map_eq_some_iff.mp h
    cases hmatching
    -- the other commands answer with the room's id only
    have hroom : ∀ {roomId}, reply = .room roomId → ∀ told ∈ reply.flagsTold, ∃ room,
        (onMatching cs f).1.shared.matching.rooms.get?
          (cs.session.matching.matchingKey, told.1) = some room ∧ told.2 = room.flagAttr := by
      rintro roomId rfl told htold
      cases htold
    cases cmd <;> simp only [Command.onRooms, reduceCtorEq, Option.some.injEq] at hf <;>
      subst hf <;> beta_reduce at hreply
    case createRoom req => exact cmdCreateRoom_told hreply
    case joinRoom req => exact cmdJoinRoom_told hreply
    case leaveRoom roomId =>
      rcases cmdLeaveRoom_cases cs.session.info senv.matching ⟨_, cs.session.matching⟩ roomId with
        ⟨e, heq⟩ | ⟨_, _, _, -, -, heq⟩ <;> rw [heq] at hreply <;> cases hreply
      exact hroom rfl
    case kickoutRoomMember req =>
      rcases cmdKickoutRoomMember_cases cs.session.info senv.matching ⟨_, cs.session.matching⟩ req with
        ⟨e, heq⟩ | ⟨_, _, _, _, -, -, -, -, -, -, heq⟩ <;> rw [heq] at hreply <;> cases hreply
      exact hroom rfl
    case setRoomDataInternal req =>
      rcases cmdSetRoomDataInternal_cases cs.session.info senv.matching ⟨_, cs.session.matching⟩ req
        with ⟨e, heq⟩ | ⟨_, _, _, -, -, heq⟩ <;> rw [heq] at hreply <;> cases hreply
      exact hroom rfl
    case setRoomDataExternal req =>
      rcases cmdSetRoomDataExternal_cases ⟨_, cs.session.matching⟩ req with
        ⟨e, heq⟩ | ⟨_, _, -, -, heq⟩ <;> rw [heq] at hreply <;> cases hreply
      exact hroom rfl
  · exact absurd h (hother.reply reply)

/-! ## Runs -/

/-- The flags of a `CreateRoom` or `JoinRoom` reply to the event show whether the room is full. -/
def Server.RepliesOk (sv : Services) (s : Server) (e : Event) : Prop :=
  ∀ c cmd env session reply, e = .request c cmd env → s.conns.get? c = some session →
    (dispatchCommand sv env c ⟨s.db, s.shared, session⟩ cmd).2.2 = some (.matching reply) →
    ∀ told ∈ reply.flagsTold, ∃ room, (s.step sv e).shared.matching.rooms.get?
      (session.matching.matchingKey, told.1) = some room ∧
      (told.2 &&& roomFlagFull ≠ 0 ↔ room.isFull = true)

/-- **The full flag is right** along a run: in every state, and in every reply. -/
def FullFlagsOk (sv : Services) (db : Database) (titleGroups : Table String String)
    (events : List Event) : Prop :=
  let server (k : ℕ) := configuredServerAfter sv db titleGroups events k
  (∀ n, AllRooms Room.FlagOk (server n).shared.matching) ∧
    ∀ k (hk : k < events.length), (server k).RepliesOk sv events[k]

/-- A room that the event creates has two slots at least. -/
def Server.CreatesLarge (s : Server) (e : Event) : Prop :=
  ∀ key info env own req, s.roomOp e = some (key, .create info env own req) →
    2 ≤ req.maxSlots % 2 ^ 16

variable {db : Database} {titleGroups : Table String String} {events : List Event}

/-- The flag is right along every run. -/
theorem server_flagged (n : ℕ) :
    AllRooms Flagged (configuredServerAfter sv db titleGroups events n).shared.matching :=
  flagged_steps.configured n

theorem createdRoom_large {env : MatchingEnv} {own : MatchingSessionState} {rid : ℕ}
    {req : CreateRoomRequest} :
    2 ≤ (createdRoom info env own rid req).1.maxSlot ↔ 2 ≤ req.maxSlots % 2 ^ 16 := by
  rw [createdRoom_ok.maxSlot]
  split <;> omega

/-- An event that creates large rooms only leaves only large rooms. -/
theorem step_large {server : Server} {e : Event}
    (h : AllRooms (fun room => 2 ≤ room.maxSlot) server.shared.matching)
    (hlarge : server.CreatesLarge e) :
    AllRooms (fun room => 2 ≤ room.maxSlot) (server.step sv e).shared.matching := by
  refine Room.Step.server h ?_ ?_
  · intro key info env own req hop
    exact createdRoom_large.mpr (hlarge key info env own req hop)
  · intro key room op room' _ hroom hstep
    rw [hstep.terms.maxSlot]
    exact hroom

/-- **The full flag is right along a run** exactly when every room that is created is asked to have two
slots at least, after the cast of the number to 16 bits. -/
theorem full_flags_ok_iff (sv : Services) (db : Database) (titleGroups : Table String String)
    (events : List Event) : FullFlagsOk sv db titleGroups events ↔
      ∀ k (hk : k < events.length),
        (configuredServerAfter sv db titleGroups events k).CreatesLarge events[k] := by
  constructor
  · rintro ⟨hflags, -⟩ k hk key info env own req hop
    -- the new room is there after the event, with its flag
    have hroom := step_room sv (configuredServerAfter sv db titleGroups events k) events[k] key
    rw [← configuredServerAfter_succ hk, hop] at hroom
    simp only [if_true, RoomOp.run] at hroom
    exact createdRoom_large.mp
      ((server_flagged (k + 1) key _ hroom).flagOk_iff.mp (hflags (k + 1) key _ hroom))
  · intro hlarge
    have hflags : ∀ n,
        AllRooms Room.FlagOk (configuredServerAfter sv db titleGroups events n).shared.matching := by
      intro n key room hroom
      have hall := runAt_guard
        (P := fun s : Server => AllRooms (fun room => 2 ≤ room.maxSlot) s.shared.matching)
        (s := { db, shared := { matching := { titleGroups } } }) (by intro key room hroom; cases hroom)
        (fun s e => step_large) hlarge n
      exact (server_flagged n key room hroom).flagOk_iff.mpr (hall key room hroom)
    refine ⟨hflags, ?_⟩
    intro k hk c cmd env session reply he hc hreply told htold
    obtain ⟨room, hroom, htells⟩ := dispatch_told hreply told htold
    rw [← step_request hc, ← he] at hroom
    refine ⟨room, hroom, ?_⟩
    rw [htells]
    beta_reduce at hroom
    rw [← configuredServerAfter_succ hk] at hroom
    exact hflags (k + 1) _ room hroom

/-- Alice creates a room for herself, which is full and does not say so. -/
theorem lonely_room_unflagged : ¬ ∀ sv db titleGroups events, FullFlagsOk sv db titleGroups events := by
  intro h
  let events : List Event :=
    [.connect, .request 0 (.login (some ⟨"alice", "alice", "", "", "", false⟩)) .plain,
      .request 0 (.createRoom (some { maxSlots := 1 })) .plain]
  have hdata : ((configuredServerAfter .plain aliceAndBob ∅ events 3).shared.matching.rooms.get?
      ("", 1)).map (fun room => (room.flagAttr, room.isFull)) = some (0, true) := by decide +kernel
  obtain ⟨room, hroom, hdata⟩ := Option.map_eq_some_iff.mp hdata
  obtain ⟨hflags, hfull⟩ := Prod.mk.inj hdata
  have hup := ((h .plain aliceAndBob ∅ events).1 3 _ room hroom).mpr hfull
  rw [Room.FlaggedFull, hflags] at hup
  exact hup (by decide)

end ShadNet
