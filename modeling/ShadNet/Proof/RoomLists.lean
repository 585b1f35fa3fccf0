import ShadNet.Proof.RoomJoin

/-!
# Whom a room keeps out

A room has lists of those whom it lets in and keeps out, and members come with lists of their own.

* `old_room_from`: what the steps of a room keep holds of it from some point of a run on.
* `Room.Step.member`: a member was there before, or the room has let him in.
* `lists_ok`: so the lists are obeyed at all times.
-/

namespace ShadNet

open Lib

variable {room room' : Room} {mid : ℕ} {m m' : RoomMember} {op : RoomOp} {key : RoomKey}
  {info : ClientInfo} {env : MatchingEnv} {npid : String}

/-! ## Rooms that are there -/

theorem ClientSession.roomOp_create {session : ClientSession} {nextRoomId : ℕ} {senv : MatchingEnv}
    {cmd : Command} {own : MatchingSessionState} {req : CreateRoomRequest}
    (h : session.roomOp nextRoomId senv cmd = some (key, .create info env own req)) :
    key.2 = nextRoomId := by
  unfold ClientSession.roomOp at h
  split at h <;> simp only [Option.some.injEq, Prod.mk.injEq, reduceCtorEq, and_false] at h
  rw [← h.1]

/-- New rooms come with the next id. -/
theorem roomOp_create {server : Server} {e : Event} {own : MatchingSessionState}
    {req : CreateRoomRequest} (h : server.roomOp e = some (key, .create info env own req)) :
    key.2 = server.shared.matching.nextRoomId := by
  cases e with
  | connect => cases h
  | request c cmd senv =>
    obtain ⟨session, -, h⟩ := Option.bind_eq_some_iff.mp h
    split at h
    · exact ClientSession.roomOp_create h
    · cases h
  | disconnect c senv =>
    obtain ⟨session, -, h⟩ := Option.bind_eq_some_iff.mp h
    split at h <;> cases h

/-- Ids of rooms only go up. -/
theorem RoomsStep.nextRoomId_le {m m' : MatchingSharedState} (h : RoomsStep m m') :
    m.nextRoomId ≤ m'.nextRoomId := by
  cases h with
  | same => exact le_rfl
  | update => exact le_rfl
  | insert =>
    unfold MatchingSharedState.insertRoom
    simp only
    split
    · exact Nat.le_succ _
    · split <;> exact Nat.le_succ _
  | erase => rw [eraseRoom_nextRoomId]

variable {sv : Services} {db : Database} {titleGroups : Table String String} {events : List Event}

/-- A room whose id is given out already is not a new one. -/
theorem step_old_room {server : Server} {e : Event} (hold : key.2 < server.shared.matching.nextRoomId)
    (h : (server.step sv e).shared.matching.rooms.get? key = some room') :
    ∃ room op, server.shared.matching.rooms.get? key = some room ∧ room.Step op room' := by
  rcases step_room_cases h with
    ⟨room, hroom, rfl | ⟨op, -, hstep⟩⟩ | ⟨info, env, own, req, hop, -⟩
  · exact ⟨room', .leave "" .listed, hroom, .idle _⟩
  · exact ⟨room, op, hroom, hstep⟩
  · have := roomOp_create hop
    omega

/-- **From some point on.** What the steps of a room keep holds of it from the point on where it does,
for ids are not given out again. -/
theorem old_room_from {Q : Room → Prop} {k n : ℕ} (hkn : k ≤ n)
    (hstep : ∀ {room op room'}, MembersOk room → Q room → room.Step op room' → Q room')
    (hold : key.2 <
      (configuredServerAfter sv db titleGroups events k).shared.matching.nextRoomId)
    (hQ : ∀ room, (configuredServerAfter sv db titleGroups events k).shared.matching.rooms.get? key =
      some room → Q room) :
    ∀ room, (configuredServerAfter sv db titleGroups events n).shared.matching.rooms.get? key =
      some room → Q room := by
  refine (runAt_from (P := fun s : Server => key.2 < s.shared.matching.nextRoomId ∧
    ∀ room, s.shared.matching.rooms.get? key = some room → Q room)
    (G := fun s _ => AllRooms MembersOk s.shared.matching) ⟨hold, hQ⟩ ?_ ?_ hkn).2
  · rintro s e ⟨hold, hQ⟩ hok
    refine ⟨hold.trans_le (step_rooms sv s e).nextRoomId_le, fun room' hroom' => ?_⟩
    obtain ⟨room, op, hroom, hroomStep⟩ := step_old_room hold hroom'
    exact hstep (hok key room hroom) (hQ room hroom) hroomStep
  · exact fun m _ _ => server_membersOk m

/-! ## Members and lists -/

/-- **Where a member comes from**: he was there, or the room has let him in. -/
theorem Room.Step.member (h : MembersOk room) (hstep : room.Step op room')
    (hm' : room'.members.get? mid = some m') :
    (∃ m, room.members.get? mid = some m ∧ m.Kept m') ∨
    ∃ info env req, op = .join info env req ∧ room.admits info env req = true ∧
      m' = room.newMember (createJoiner info env req) := by
  cases hstep with
  | idle => exact Or.inl ⟨m', hm', .refl m'⟩
  | @join info env req hadmits =>
    rw [(join_seats _ _).members] at hm'
    rcases of_addMember hm' with ⟨-, rfl⟩ | ⟨-, hold⟩
    · exact Or.inr ⟨info, env, req, rfl, hadmits, rfl⟩
    · exact Or.inl ⟨m', hold, .refl m'⟩
  | @leave npid order me hme hleft =>
    have hkept := afterLeave_keptAt (h.remain (dropMember_remain room me.memberId))
      (dropMember_size_pos hleft) order (decide (me.memberId = room.ownerMemberId)) mid
    obtain ⟨m, hm, hsame⟩ := hkept.stayed m' hm'
    exact Or.inl ⟨m, (dropMember_get?_some.mp hm).2, hsame⟩
  | kick =>
    rw [(kick_seats _ _ _ _).members] at hm'
    exact Or.inl ⟨m', (dropMember_get?_some.mp hm').2, .refl m'⟩
  | setInternal =>
    rw [(setDataInternal_seats _ _ _ _).members] at hm'
    exact Or.inl ⟨m', hm', .refl m'⟩
  | setExternal =>
    rw [(setDataExternal_seats _ _).members] at hm'
    exact Or.inl ⟨m', hm', .refl m'⟩

/-- The lists stay as they are, but for those who are kicked out and blocked. -/
structure KeepsLists (room room' : Room) : Prop where
  allowedUsers : room'.allowedUsers = room.allowedUsers
  allowedAccountIds : room'.allowedAccountIds = room.allowedAccountIds
  blockedAccountIds : room'.blockedAccountIds = room.blockedAccountIds
  blocked : ∀ npid ∈ room.blockedUsers, npid ∈ room'.blockedUsers
  newlyBlocked : ∀ npid ∈ room'.blockedUsers, npid ∈ room.blockedUsers ∨ ¬ room'.Has npid

theorem SameTerms.lists (h : SameTerms room room') (hbu : room'.blockedUsers = room.blockedUsers) :
    KeepsLists room room' :=
  ⟨h.allowedUsers, h.allowedAccountIds, h.blockedAccountIds, fun _ hin => hbu ▸ hin,
    fun _ hin => Or.inl (hbu ▸ hin)⟩

/-- A kick puts the name on the list if it is asked to and the name is not there. -/
theorem kick_blockedUsers (room : Room) (target : RoomMember) (mid flag : ℕ) :
    (room.kick target mid flag).blockedUsers =
      if flag ≠ 0 ∧ target.npid ∉ room.blockedUsers then room.blockedUsers ++ [target.npid]
      else room.blockedUsers := by
  unfold Room.kick
  split <;> rfl

/-- Nobody else in the room has the name of whoever is kicked out. -/
theorem kick_not_has (h : MembersOk room) {target : RoomMember}
    (htarget : room.members.get? mid = some target) (flag : ℕ) :
    ¬ (room.kick target mid flag).Has target.npid := by
  rintro ⟨mid', p, hp, hname⟩
  rw [(kick_seats _ _ _ _).members] at hp
  obtain ⟨hne, hp⟩ := dropMember_get?_some.mp hp
  exact hne (h.npids mid' p mid target hp htarget hname)

/-- Every operation keeps the room's lists. -/
theorem Room.Step.lists (h : MembersOk room) (hstep : room.Step op room') : KeepsLists room room' := by
  have hterms := hstep.terms
  cases hstep with
  | idle => exact hterms.lists rfl
  | join => exact hterms.lists (join_blockedUsers _ _)
  | @leave npid order me hme hleft =>
    obtain ⟨_, _, _, heq⟩ :=
      afterLeave_eq (room.dropMember me.memberId) order (decide (me.memberId = room.ownerMemberId))
    refine hterms.lists ?_
    rw [heq]
    rfl
  | @kick info env req target htarget =>
    have hgone := kick_not_has h (kickTarget_get? htarget) req.blockKickFlag
    have hblocked := kick_blockedUsers room target (req.targetMemberId % 2 ^ 16) req.blockKickFlag
    refine ⟨hterms.allowedUsers, hterms.allowedAccountIds, hterms.blockedAccountIds, fun npid hin => ?_,
      fun npid hin => ?_⟩
    · rw [hblocked]
      split
      · exact List.mem_append_left _ hin
      · exact hin
    · rw [hblocked] at hin
      split at hin
      · rcases List.mem_append.mp hin with hold | hnew
        · exact Or.inl hold
        · rw [List.mem_singleton] at hnew
          exact Or.inr (hnew ▸ hgone)
      · exact Or.inl hin
  | setInternal info env req setterId =>
    refine hterms.lists ?_
    rw [setDataInternal_eq]
    simp only
    split <;> rfl
  | setExternal req =>
    refine hterms.lists ?_
    rw [setDataExternal_eq]

/-! ## The lists of the room -/

/-- **The room's lists let him in.** -/
structure Room.Fits (room : Room) (m : RoomMember) : Prop where
  notBlocked : m.npid ∉ room.blockedUsers
  accountNotBlocked : accountId m.userId ∉ room.blockedAccountIds
  allowed : room.allowedUsers ≠ [] → m.npid ∈ room.allowedUsers
  accountAllowed : room.allowedAccountIds ≠ [] → accountId m.userId ∈ room.allowedAccountIds

/-- Who is let in fits the room's lists. -/
theorem fits_of_admits {req : JoinRoomRequest} (h : room.admits info env req = true) :
    room.Fits (room.newMember (createJoiner info env req)) := by
  simp only [Room.admits, Room.refuses, Bool.and_eq_true, Bool.not_eq_true', decide_eq_false_iff_not,
    not_or, not_and, not_not] at h
  obtain ⟨⟨-, hallowed, haccount, hblocked, hblockedAccount⟩, -⟩ := h
  exact ⟨hblocked, hblockedAccount, hallowed, haccount⟩

theorem Room.Fits.kept (h : room.Fits m) (hkept : m.Kept m') : room.Fits m' := by
  rcases hkept with rfl | rfl
  · exact h
  · exact ⟨h.notBlocked, h.accountNotBlocked, h.allowed, h.accountAllowed⟩

/-- Lists that grow by those who are not there. -/
theorem Room.Fits.lists (h : room.Fits m) (hlists : KeepsLists room room')
    (hm : room'.members.get? mid = some m) : room'.Fits m := by
  refine ⟨fun hin => ?_, hlists.blockedAccountIds ▸ h.accountNotBlocked, hlists.allowedUsers ▸ h.allowed,
    hlists.allowedAccountIds ▸ h.accountAllowed⟩
  rcases hlists.newlyBlocked _ hin with hold | hgone
  · exact h.notBlocked hold
  · exact hgone ⟨mid, m, hm, rfl⟩

/-- Whoever has an id fits in, if whoever had it before does. -/
theorem Room.Step.fits (h : MembersOk room) (hstep : room.Step op room')
    (hfits : ∀ m, room.members.get? mid = some m → room.Fits m)
    (hm' : room'.members.get? mid = some m') : room'.Fits m' := by
  have hbefore : room.Fits m' := by
    rcases hstep.member h hm' with ⟨m, hm, hkept⟩ | ⟨info, env, req, -, hadmits, rfl⟩
    · exact (hfits m hm).kept hkept
    · exact fits_of_admits hadmits
  exact hbefore.lists (hstep.lists h) hm'

/-! ## The lists of the members -/

/-- **No member is on the lists of another.** -/
def Room.Apart (room : Room) : Prop :=
  ∀ mid m mid' m', room.members.get? mid = some m → room.members.get? mid' = some m' → mid ≠ mid' →
    m'.npid ∉ m.blockedUsers ∧ accountId m'.userId ∉ m.blockedAccountIds

/-- Somebody who is let in and those who are there do not block each other. -/
theorem apart_of_admits {req : JoinRoomRequest} (h : room.admits info env req = true)
    (hm : room.members.get? mid = some m) :
    (m.npid ∉ req.blockedOnlineIds ∧ accountId m.userId ∉ req.blockedAccountIds) ∧
      info.npid ∉ m.blockedUsers ∧ accountId info.userId ∉ m.blockedAccountIds := by
  simp only [Room.admits, Bool.and_eq_true, Bool.not_eq_true', List.any_eq_false] at h
  have hblocks : (createJoiner info env req).blocks m = false :=
    Bool.eq_false_iff.mpr (h.2 (mid, m) (Table.mem_inOrder.mpr hm))
  rw [RoomMember.blocks, decide_eq_false_iff_not] at hblocks
  simp only [createJoiner, not_or] at hblocks
  exact ⟨⟨hblocks.1, hblocks.2.1⟩, hblocks.2.2⟩

theorem Room.Apart.join (h : room.Apart) {req : JoinRoomRequest}
    (hadmits : room.admits info env req = true) : (room.join (createJoiner info env req)).Apart := by
  intro mid m mid' m' hm hm' hne
  rw [(join_seats _ _).members] at hm hm'
  rcases of_addMember hm with ⟨hmid, rfl⟩ | ⟨-, hold⟩ <;>
    rcases of_addMember hm' with ⟨hmid', rfl⟩ | ⟨-, hold'⟩
  · exact absurd (hmid.trans hmid'.symm) hne
  · exact (apart_of_admits hadmits hold').1
  · exact (apart_of_admits hadmits hold).2
  · exact h mid m mid' m' hold hold' hne

/-- Every operation keeps those who block each other apart. -/
theorem Room.Step.apart (h : MembersOk room) (hapart : room.Apart) (hstep : room.Step op room') :
    room'.Apart := by
  by_cases hjoin : ∃ info env req, op = .join info env req
  · obtain ⟨info, env, req, rfl⟩ := hjoin
    cases hstep with
    | idle => exact hapart
    | join hadmits => exact hapart.join hadmits
  · -- all members were there before
    intro mid m mid' m' hm hm' hne
    have hold : ∀ {mid m}, room'.members.get? mid = some m →
        ∃ p, room.members.get? mid = some p ∧ p.Kept m := by
      intro mid m hm
      rcases hstep.member h hm with hkept | ⟨info, env, req, hop, -⟩
      · exact hkept
      · exact absurd ⟨info, env, req, hop⟩ hjoin
    obtain ⟨p, hp, hkept⟩ := hold hm
    obtain ⟨p', hp', hkept'⟩ := hold hm'
    have hblocks := hapart mid p mid' p' hp hp' hne
    rcases hkept with rfl | rfl <;> rcases hkept' with rfl | rfl <;> exact hblocks

theorem createdRoom_apart {own : MatchingSessionState} {rid : ℕ} {req : CreateRoomRequest} :
    (createdRoom info env own rid req).1.Apart := by
  intro mid m mid' m' hm hm' hne
  exact absurd ((createdRoom_ok.only hm).1.trans (createdRoom_ok.only hm').1.symm) hne

/-- Those who block each other are apart along every run. -/
theorem server_apart (n : ℕ) :
    AllRooms Room.Apart (configuredServerAfter sv db titleGroups events n).shared.matching := by
  refine runAt_guard (P := fun s : Server => AllRooms Room.Apart s.shared.matching)
    (G := fun s _ => AllRooms MembersOk s.shared.matching) ?_ ?_ (fun k _ => server_membersOk k) n
  · intro key room hroom
    cases hroom
  · intro s e hapart hok
    exact Room.Step.server hapart (fun _ _ _ _ _ _ => createdRoom_apart)
      fun hroom happart hstep => hstep.apart (hok _ _ hroom) happart

/-! ## Kicks -/

/-- Somebody whose name is on the list and who is not there is not let in. -/
theorem Room.Step.keepsOut (h : MembersOk room) (hstep : room.Step op room')
    (hout : npid ∈ room.blockedUsers ∧ ¬ room.Has npid) :
    npid ∈ room'.blockedUsers ∧ ¬ room'.Has npid := by
  refine ⟨(hstep.lists h).blocked npid hout.1, ?_⟩
  rintro ⟨mid, m', hm', hname⟩
  rcases hstep.member h hm' with ⟨m, hm, hkept⟩ | ⟨info, env, req, -, hadmits, rfl⟩
  · exact hout.2 ⟨mid, m, hm, hkept.npid.symm.trans hname⟩
  · exact (fits_of_admits hadmits).notBlocked (hname ▸ hout.1)

/-! ## Runs -/

/-- A `JoinRoom` for the room under the key, which succeeds: the client is told its member id. -/
def Server.LetsIn (sv : Services) (s : Server) (e : Event) (key : RoomKey) (memberId : ℕ) : Prop :=
  ∃ c req env session maxSlots flags curMembers details,
    e = .request c (.joinRoom (some req)) env ∧ s.conns.get? c = some session ∧
    key = (session.matching.matchingKey, req.roomId) ∧
    (dispatchCommand sv env c ⟨s.db, s.shared, session⟩ (.joinRoom (some req))).2.2 =
      some (.matching (.joinRoom req.roomId memberId maxSlots flags curMembers details))

/-- A `KickoutRoomMember` with the block flag, which succeeds, for a member with the npid. -/
def Server.BlocksOut (sv : Services) (s : Server) (e : Event) (key : RoomKey) (npid : String) : Prop :=
  ∃ c req env session room target,
    e = .request c (.kickoutRoomMember (some req)) env ∧ s.conns.get? c = some session ∧
    key = (session.matching.matchingKey, req.roomId) ∧ req.blockKickFlag ≠ 0 ∧
    (dispatchCommand sv env c ⟨s.db, s.shared, session⟩ (.kickoutRoomMember (some req))).2.1 =
      .noError ∧
    s.shared.matching.rooms.get? key = some room ∧
    room.members.get? (req.targetMemberId % 2 ^ 16) = some target ∧ target.npid = npid

/-- A join that is replied to has let the user in. -/
theorem cmdJoinRoom_some {s : MatchingState} {req : JoinRoomRequest} {roomId memberId maxSlots : ℕ}
    {flags : UInt32} {curMembers : ℕ} {details : CreateJoinRoomResponse}
    (h : (cmdJoinRoom info env s (some req)).2.2 =
      some (.joinRoom roomId memberId maxSlots flags curMembers details)) :
    ∃ room, s.shared.rooms.get? (s.own.matchingKey, req.roomId) = some room ∧
      room.admits info env req = true ∧ memberId = room.allocMemberId := by
  unfold cmdJoinRoom at h
  simp only at h
  cases hroom : s.shared.rooms.get? (s.own.matchingKey, req.roomId) with
  | none => simp only [hroom, reduceCtorEq] at h
  | some room =>
    simp only [hroom] at h
    split_ifs at h with hfull hnpid hrefuses hblocks
    simp only [Option.some.injEq, MatchingReply.joinRoom.injEq] at h
    refine ⟨room, rfl, ?_, h.2.1.symm⟩
    simp only [Room.admits, hfull, hrefuses, hblocks, Option.not_isSome_iff_eq_none.mp hnpid,
      Option.isNone_none, Bool.not_false, Bool.and_self]

/-- A kick that succeeds had a room and a target. -/
theorem cmdKickoutRoomMember_noError {s : MatchingState} {req : KickoutRoomMemberRequest}
    (h : (cmdKickoutRoomMember info env s (some req)).2.1 = .noError) :
    ∃ room target, s.shared.rooms.get? (s.own.matchingKey, req.roomId) = some room ∧
      room.kickTarget info env req = some target := by
  unfold cmdKickoutRoomMember at h
  simp only at h
  cases hroom : s.shared.rooms.get? (s.own.matchingKey, req.roomId) with
  | none => simp only [hroom, reduceCtorEq] at h
  | some room =>
    simp only [hroom] at h
    cases hini : room.findByNpid env.order info.npid with
    | none => simp only [hini, reduceCtorEq] at h
    | some initiator =>
      simp only [hini] at h
      split_ifs at h with howner hself
      cases htarget : room.findById (req.targetMemberId % 2 ^ 16) with
      | none => simp only [htarget, reduceCtorEq] at h
      | some target =>
        refine ⟨room, target, rfl, ?_⟩
        simp only [Room.kickTarget, hini, Option.bind_some]
        rw [if_neg (by simp only [howner, hself, or_self, not_false_eq_true]), htarget]

/-- Nothing succeeds before a login. -/
theorem matching_authenticated {c : ConnId} {senv : Env} {cs : CommandState} {cmd : Command}
    (hmatching : (cmd.onRooms cs.session.info senv.matching).isSome = true)
    (h : (dispatchCommand sv senv c cs cmd).2.1 = .noError ∨
      (dispatchCommand sv senv c cs cmd).2.2.isSome = true) : cs.session.authenticated = true := by
  by_contra hauth
  unfold dispatchCommand at h
  rw [if_neg hauth] at h
  cases cmd <;> first | (simp at h; done) | cases hmatching

variable {s : Server} {e : Event}

theorem Server.LetsIn.roomOp {memberId : ℕ} (h : s.LetsIn sv e key memberId) :
    ∃ info env req room, s.roomOp e = some (key, .join info env req) ∧
      s.shared.matching.rooms.get? key = some room ∧ room.admits info env req = true ∧
      memberId = room.allocMemberId := by
  obtain ⟨c, req, senv, session, _, _, _, _, rfl, hc, rfl, hreply⟩ := h
  have hauth : session.authenticated = true :=
    matching_authenticated rfl (Or.inr (by rw [hreply]; rfl))
  have heq : dispatchCommand sv senv c ⟨s.db, s.shared, session⟩ (.joinRoom (some req)) = _ :=
    dispatch_onRooms hauth rfl
  rw [heq] at hreply
  obtain ⟨reply, hreply, heq⟩ := Option.map_eq_some_iff.mp hreply
  cases heq
  obtain ⟨room, hroom, hadmits, hid⟩ := cmdJoinRoom_some hreply
  exact ⟨session.info, senv.matching, req, room, roomOp_request hc hauth, hroom, hadmits, hid⟩

theorem Server.BlocksOut.roomOp (h : s.BlocksOut sv e key npid) :
    ∃ info env req room target, s.roomOp e = some (key, .kick info env req) ∧
      s.shared.matching.rooms.get? key = some room ∧ room.kickTarget info env req = some target ∧
      req.blockKickFlag ≠ 0 ∧ target.npid = npid := by
  obtain ⟨c, req, senv, session, room, target, rfl, hc, rfl, hflag, hok, hroom, htarget, hname⟩ := h
  have hauth : session.authenticated = true :=
    matching_authenticated rfl (Or.inl hok)
  have heq : dispatchCommand sv senv c ⟨s.db, s.shared, session⟩ (.kickoutRoomMember (some req)) = _ :=
    dispatch_onRooms hauth rfl
  rw [heq] at hok
  obtain ⟨room', target', hroom', htarget'⟩ := cmdKickoutRoomMember_noError hok
  obtain rfl := Option.some.inj (hroom.symm.trans hroom')
  obtain rfl := Option.some.inj (htarget.symm.trans (kickTarget_get? htarget'))
  exact ⟨session.info, senv.matching, req, room, target, roomOp_request hc hauth, hroom, htarget',
    hflag, hname⟩

/-- **The lists are obeyed** along a run: in every state after a room was created its lists of those
whom it lets in are what the creator gave; whoever came in by `JoinRoom` is on those of them that are
not empty, and not on those of whom it keeps out; no member is on a list of another; and whoever was
kicked out and blocked is not a member any more. -/
structure ListsOk (sv : Services) (db : Database) (titleGroups : Table String String)
    (events : List Event) : Prop where
  created : ∀ k (hk : k < events.length) key info env own req,
    (configuredServerAfter sv db titleGroups events k).roomOp events[k] =
      some (key, .create info env own req) → ∀ n, k < n → ∀ room,
    (configuredServerAfter sv db titleGroups events n).shared.matching.rooms.get? key = some room →
    room.allowedUsers = req.allowedOnlineIds ∧ room.allowedAccountIds = req.allowedAccountIds
  joined : ∀ k (hk : k < events.length) key mid,
    (configuredServerAfter sv db titleGroups events k).LetsIn sv events[k] key mid →
    ∀ n, k < n → ∀ room m,
    (configuredServerAfter sv db titleGroups events n).shared.matching.rooms.get? key = some room →
    room.members.get? mid = some m → room.Fits m
  apart : ∀ n, AllRooms Room.Apart
    (configuredServerAfter sv db titleGroups events n).shared.matching
  kicked : ∀ k (hk : k < events.length) key npid,
    (configuredServerAfter sv db titleGroups events k).BlocksOut sv events[k] key npid →
    ∀ n, k < n → ∀ room,
    (configuredServerAfter sv db titleGroups events n).shared.matching.rooms.get? key = some room →
    ¬ room.Has npid

/-- What an event makes of a room has `Q`, and the steps of the room keep it. -/
theorem made_room_from {Q : Room → Prop} {k n : ℕ} (hk : k < events.length) (hkn : k < n)
    (hop : (configuredServerAfter sv db titleGroups events k).roomOp events[k] = some (key, op))
    (hrun : op.run key.2 ((configuredServerAfter sv db titleGroups events k).shared.matching.rooms.get?
      key) = some room') (hQ : Q room')
    (hstep : ∀ {room op room'}, MembersOk room → Q room → room.Step op room' → Q room') :
    ∀ room, (configuredServerAfter sv db titleGroups events n).shared.matching.rooms.get? key =
      some room → Q room := by
  have hmade : (configuredServerAfter sv db titleGroups events (k + 1)).shared.matching.rooms.get? key =
      some room' := by
    rw [configuredServerAfter_succ hk, step_room, hop]
    simpa using hrun
  refine old_room_from (k := k + 1) hkn hstep
    ((server_indexInv sv db titleGroups events (k + 1)).below key room' hmade) ?_
  intro room hroom
  obtain rfl := Option.some.inj (hmade.symm.trans hroom)
  exact hQ

/-- **The lists are obeyed** along every run. -/
theorem lists_ok (sv : Services) (db : Database) (titleGroups : Table String String)
    (events : List Event) : ListsOk sv db titleGroups events where
  created k hk key info env own req hop n hkn := by
    refine made_room_from hk hkn hop rfl
      ⟨createdRoom_takesOver.allowedUsers, createdRoom_takesOver.allowedAccountIds⟩ ?_
    rintro room op room' hok ⟨hau, haa⟩ hstep
    have hlists := hstep.lists hok
    exact ⟨hlists.allowedUsers.trans hau, hlists.allowedAccountIds.trans haa⟩
  joined k hk key mid hin n hkn room m hroom := by
    obtain ⟨info, env, req, before, hop, hbefore, hadmits, rfl⟩ := hin.roomOp
    have hjoined : (RoomOp.join info env req).run key.2 (some before) =
        some (before.join (createJoiner info env req)) := by
      simp only [RoomOp.run, hadmits, if_true]
    rw [← hbefore] at hjoined
    refine made_room_from (Q := fun room => ∀ m, room.members.get? before.allocMemberId = some m →
      room.Fits m) hk hkn hop hjoined ?_ (fun hok hfits hstep _ hm => hstep.fits hok hfits hm) room
        hroom m
    -- the new member
    intro m hm
    have hok := server_membersOk k key before hbefore
    refine Room.Fits.lists ?_ ((Room.Step.join hadmits).lists hok) hm
    rw [(join_seats _ _).members, addMember_get?, if_pos rfl] at hm
    obtain rfl := Option.some.inj hm
    exact fits_of_admits hadmits
  apart := server_apart
  kicked k hk key npid hout n hkn room hroom := by
    obtain ⟨info, env, req, before, target, hop, hbefore, htarget, hflag, rfl⟩ := hout.roomOp
    have hok := server_membersOk k key before hbefore
    have hkicked : (RoomOp.kick info env req).run key.2 (some before) =
        some (before.kick target (req.targetMemberId % 2 ^ 16) req.blockKickFlag) := by
      simp only [RoomOp.run, htarget]
    rw [← hbefore] at hkicked
    refine (made_room_from (Q := fun room => target.npid ∈ room.blockedUsers ∧ ¬ room.Has target.npid)
      hk hkn hop hkicked ⟨?_, kick_not_has hok (kickTarget_get? htarget) _⟩
      (fun hok hout hstep => hstep.keepsOut hok hout) room hroom).2
    -- the name is on the list, if it was not before
    rw [kick_blockedUsers]
    split
    · exact List.mem_append_right _ (List.mem_singleton_self _)
    · rename_i hlisted
      by_contra hnot
      exact hlisted ⟨hflag, hnot⟩

/-- Bob, whom Alice has kicked out and blocked, is not let in again. -/
example :
    let events : List Event :=
      [.connect, .request 0 (.login (some ⟨"alice", "alice", "", "", "", false⟩)) .plain,
        .request 0 (.createRoom (some { maxSlots := 4 })) .plain, .connect,
        .request 1 (.login (some ⟨"bob", "bob", "", "", "", false⟩)) .plain,
        .request 1 (.joinRoom (some { roomId := 1 })) .plain,
        .request 0 (.kickoutRoomMember (some ⟨1, 34, 1⟩)) .plain]
    let server := configuredServerAfter .plain aliceAndBob ∅ events 7
    (server.conns.get? 1).map (fun session => (dispatchCommand .plain .plain 1
      ⟨server.db, server.shared, session⟩ (.joinRoom (some { roomId := 1 }))).2.1) = some .blocked := by
  decide +kernel

end ShadNet
