import ShadNet.Proof.RoomStep

/-!
# New members

A new member gets an id of a slot and a counter. There are 64 slots; in a larger room those who find
none share the number 65, and the counter has only 16 values.

* `allocMemberId_fresh_iff`: when the id that is given is a new one.
* `join_ok_iff`: so `JoinRoom` adds to a room exactly then; otherwise it overwrites a member.
-/

namespace ShadNet

open Lib

variable {room room' : Room} {mid : ℕ} {m : RoomMember}

/-- **A join is right**: there is one member more, the others stay what they are, and the new id is
nobody else's. -/
structure JoinOk (room room' : Room) (memberId : ℕ) : Prop where
  size : room'.members.size = room.members.size + 1
  kept : ∀ mid m, room.members.get? mid = some m → room'.members.get? mid = some m
  fresh : room.members.get? memberId = none
  new : (room'.members.get? memberId).isSome

/-- There is a slot that nobody has, or else the id of slot 65 with the next counter is free. -/
def Room.HasFreeId (room : Room) : Prop :=
  (∃ slot, 1 ≤ slot ∧ slot ≤ 64 ∧ room.taken slot = false) ∨
    room.members.get? (65 * 16 + (room.memberIdCounter + 1) % 16) = none

/-- With 64 slots taken the free slot is 65. -/
theorem freeSlot_eq (h : ∀ slot, 1 ≤ slot → slot ≤ 64 → room.taken slot = true) :
    room.freeSlot = 65 := by
  have hnone : (List.range' 1 64).find? (fun slot => !room.taken slot) = none := by
    rw [List.find?_eq_none]
    intro slot hslot
    rw [List.mem_range'_1] at hslot
    simp [h slot hslot.1 (by omega)]
  unfold Room.freeSlot
  rw [hnone]
  rfl

/-- **When the new id is new.** -/
theorem allocMemberId_fresh_iff (h : MembersOk room) :
    room.members.get? room.allocMemberId = none ↔ room.HasFreeId := by
  by_cases hslot : ∃ slot, 1 ≤ slot ∧ slot ≤ 64 ∧ room.taken slot = false
  · obtain ⟨slot, h1, h64, hfree⟩ := hslot
    exact iff_of_true (allocMemberId_fresh h (freeSlot_free h1 h64 hfree).2)
      (Or.inl ⟨slot, h1, h64, hfree⟩)
  · have hfull : room.freeSlot = 65 := by
      refine freeSlot_eq fun slot h1 h64 => ?_
      by_contra hfree
      exact hslot ⟨slot, h1, h64, by simpa using hfree⟩
    unfold Room.HasFreeId
    rw [allocMemberId_eq, hfull, or_iff_right hslot]

/-- **When a join adds to a room.** -/
theorem joinOk_iff (h : MembersOk room) (joiner : RoomMember) :
    JoinOk room (room.join joiner) room.allocMemberId ↔ room.HasFreeId := by
  rw [← allocMemberId_fresh_iff h]
  refine ⟨fun hok => hok.fresh, fun hfresh => ?_⟩
  have hmembers := (join_seats room joiner).members
  refine ⟨?_, fun mid m hm => ?_, hfresh, ?_⟩
  · rw [hmembers]
    exact Table.size_set_of_none hfresh
  · have hne : mid ≠ room.allocMemberId := by
      rintro rfl
      rw [hfresh] at hm
      cases hm
    rw [hmembers]
    exact (Table.get?_set_ne hne).trans hm
  · rw [hmembers, addMember_get?, if_pos rfl]
    rfl

/-! ## Runs -/

variable {sv : Services} {db : Database} {titleGroups : Table String String} {events : List Event}

/-- Members are in order along every run. -/
theorem server_membersOk (n : ℕ) :
    AllRooms MembersOk (configuredServerAfter sv db titleGroups events n).shared.matching :=
  membersOk_rules.steps.configured n

/-- An event that is a `JoinRoom`, and makes `room'` of `room`; the client is told `memberId`. -/
def Server.JoinsAs (sv : Services) (s : Server) (e : Event) (room room' : Room) (memberId : ℕ) : Prop :=
  ∃ c req env session maxSlots flags curMembers details,
    e = .request c (.joinRoom (some req)) env ∧ s.conns.get? c = some session ∧
    (dispatchCommand sv env c ⟨s.db, s.shared, session⟩ (.joinRoom (some req))).2.2 =
      some (.matching (.joinRoom req.roomId memberId maxSlots flags curMembers details)) ∧
    s.shared.matching.rooms.get? (session.matching.matchingKey, req.roomId) = some room ∧
    (s.step sv e).shared.matching.rooms.get? (session.matching.matchingKey, req.roomId) = some room'

/-- Every `JoinRoom` that succeeds makes a new room of an old one. -/
theorem Server.Joins.joinsAs {s : Server} {e : Event} (h : s.Joins sv e) :
    ∃ key room joiner, s.shared.matching.rooms.get? key = some room ∧
      s.JoinsAs sv e room (room.join joiner) room.allocMemberId := by
  unfold Server.Joins at h
  split at h
  · rename_i c req env
    obtain ⟨session, hc, hok⟩ := h
    by_cases hauth : session.authenticated = true
    · have heq : dispatchCommand sv env c ⟨s.db, s.shared, session⟩ (.joinRoom req) = _ :=
        dispatch_onRooms hauth rfl
      have hstep : (s.step sv (.request c (.joinRoom req) env)).shared = _ := step_request hc _
      rw [heq] at hok hstep
      rcases cmdJoinRoom_cases session.info env.matching ⟨s.shared.matching, session.matching⟩ req with
        ⟨-, -, hfail⟩ | ⟨r, room, maxSlots, flags, curMembers, rfl, hroom, -, -, hshared, -, hreply⟩
      · exact absurd hok hfail
      · refine ⟨_, room, createJoiner session.info env.matching r, hroom, c, r, env, session, maxSlots,
          flags, curMembers, buildCreateJoinResponse (room.join (createJoiner session.info env.matching r))
            (room.newMember (createJoiner session.info env.matching r)), rfl, hc, ?_, hroom, ?_⟩
        · rw [heq]
          simp only [onMatching, hreply, Option.map_some]
        · rw [hstep]
          simp only [onMatching, hshared]
          exact Table.get?_set_self
    · simp [dispatchCommand, hauth] at hok
  · exact h.elim

/-- **Joins are right** exactly where the room has a free id: in every reachable state, a `JoinRoom`
that succeeds adds one member under a new id and keeps the others if and only if one of the slots 1
to 64 is free, or nobody has the id of slot 65 with the next counter. -/
theorem join_ok_iff (sv : Services) (db : Database) (titleGroups : Table String String)
    (events : List Event) (n : ℕ) (e : Event)
    (hjoin : (configuredServerAfter sv db titleGroups events n).Joins sv e) :
    ∃ room room' memberId,
      (configuredServerAfter sv db titleGroups events n).JoinsAs sv e room room' memberId ∧
      (JoinOk room room' memberId ↔ room.HasFreeId) := by
  obtain ⟨key, room, joiner, hroom, hjoins⟩ := hjoin.joinsAs
  exact ⟨room, _, _, hjoins, joinOk_iff (server_membersOk n key room hroom) joiner⟩

/-- Bob joins Alice's room, where slot 2 is free. -/
theorem bobs_join_ok :
    let events : List Event :=
      [.connect, .request 0 (.login (some ⟨"alice", "alice", "", "", "", false⟩)) .plain,
        .request 0 (.createRoom (some { maxSlots := 100 })) .plain, .connect,
        .request 1 (.login (some ⟨"bob", "bob", "", "", "", false⟩)) .plain]
    let e : Event := .request 1 (.joinRoom (some { roomId := 1 })) .plain
    ∃ room room' memberId,
      (configuredServerAfter .plain aliceAndBob ∅ events 5).JoinsAs .plain e room room' memberId ∧
      JoinOk room room' memberId := by
  intro events e
  let server := configuredServerAfter .plain aliceAndBob ∅ events 5
  have hok : (server.conns.get? 1).map (fun session => (session.matching.matchingKey,
      (dispatchCommand .plain .plain 1 ⟨server.db, server.shared, session⟩
        (.joinRoom (some { roomId := 1 }))).2.1)) = some ("", .noError) := by decide +kernel
  have hfree : (server.shared.matching.rooms.get? ("", 1)).map (·.taken 2) = some false := by
    decide +kernel
  obtain ⟨session, hc, hsession⟩ := Option.map_eq_some_iff.mp hok
  obtain ⟨hkey, hnoError⟩ := Prod.mk.inj hsession
  obtain ⟨room, room', memberId, hjoins, hiff⟩ :=
    join_ok_iff .plain aliceAndBob ∅ events 5 e ⟨session, hc, hnoError⟩
  refine ⟨room, room', memberId, hjoins, hiff.mpr (Or.inl ⟨2, by decide, by decide, ?_⟩)⟩
  obtain ⟨c, req, env, session', _, _, _, _, he, hc', -, hroom, -⟩ := hjoins
  simp only [e, Event.request.injEq, Command.joinRoom.injEq, Option.some.injEq] at he
  obtain ⟨rfl, rfl, rfl⟩ := he
  obtain rfl : session = session' := Option.some.inj (hc.symm.trans hc')
  rw [hkey] at hroom
  rw [hroom] at hfree
  exact Option.some.inj hfree

/-! ## A crowded room -/

/-- The name of user number `i`. -/
def crowdName (i : ℕ) : String :=
  String.ofList ['u', 's', 'e', 'r', Nat.digitChar (i / 10), Nat.digitChar (i % 10)]

/-- One of many accounts. -/
def crowdUser (i : ℕ) : UserRecord := plainUser (i + 1 : ℕ) (crowdName i)

/-- A hundred users. -/
def crowdDb : Database := ⟨(List.range 100).map crowdUser, 100, ∅⟩

/-- His login. -/
def crowdLogin (i : ℕ) : LoginRequest := ⟨crowdName i, crowdName i, "", "", "", false⟩

/-- The first user creates a room with 100 slots, and the others enter it. -/
def crowdEnters (i : ℕ) : Command :=
  if i = 0 then .createRoom (some { maxSlots := 100 }) else .joinRoom (some { roomId := 1 })

/-- The first `n` users connect, log in and enter, one after another. -/
def crowdEvents : ℕ → List Event
  | 0 => []
  | n + 1 => crowdEvents n ++
    [.connect, .request n (.login (some (crowdLogin n))) .plain, .request n (crowdEnters n) .plain]

/-- The id that the `j`-th member gets. -/
def crowdId (j : ℕ) : ℕ := min j 65 * 16 + j % 16

/-- The room after `n` users. -/
structure Filled (n : ℕ) (room : Room) : Prop where
  maxSlot : room.maxSlot = 100
  counter : room.memberIdCounter = n % 16
  lists : room.allowedUsers = [] ∧ room.allowedAccountIds = [] ∧ room.blockedUsers = [] ∧
    room.blockedAccountIds = []
  stored : ∀ mid m, room.members.get? mid = some m → m.memberId = mid
  ids : ∀ mid, (∃ m, room.members.get? mid = some m) ↔ ∃ j, 1 ≤ j ∧ j ≤ n ∧ mid = crowdId j
  members : ∀ mid m, room.members.get? mid = some m →
    (∃ j, j < n ∧ m.npid = crowdName j) ∧ m.blockedUsers = [] ∧ m.blockedAccountIds = []
  size : room.members.size ≤ n

/-- The state after `n` users. -/
structure Crowd (n : ℕ) (s : Server) : Prop where
  db : s.db = crowdDb
  groups : s.shared.matching.titleGroups = ∅
  nextConn : s.nextConn = n
  clients : ∀ i : ℕ, n < i → s.shared.clients.get? i = none
  nextRoom : n = 0 → s.shared.matching.nextRoomId = 1
  room : 0 < n → ∃ room, s.shared.matching.rooms.get? ("", 1) = some room ∧ Filled n room

/-- The next user has logged in. -/
structure LoggedIn (n : ℕ) (s : Server) : Prop where
  db : s.db = crowdDb
  groups : s.shared.matching.titleGroups = ∅
  nextConn : s.nextConn = n + 1
  conn : ∃ session, s.conns.get? n = some session ∧ session.authenticated = true ∧
    session.info.npid = crowdName n ∧ session.matching.matchingKey = ""
  clients : ∀ i : ℕ, n + 1 < i → s.shared.clients.get? i = none
  nextRoom : n = 0 → s.shared.matching.nextRoomId = 1
  room : 0 < n → ∃ room, s.shared.matching.rooms.get? ("", 1) = some room ∧ Filled n room

theorem crowdName_injective {i j : ℕ} (hi : i < 100) (hj : j < 100) (h : crowdName i = crowdName j) :
    i = j := by
  have hdigit : ∀ d < 10, ∀ e < 10, Nat.digitChar d = Nat.digitChar e → d = e := by decide
  have hlist := String.ofList_injective h
  simp only [List.cons.injEq, and_true, true_and] at hlist
  have htens := hdigit _ (by omega) _ (by omega) hlist.1
  have hones := hdigit _ (by omega) _ (by omega) hlist.2
  omega

theorem noCase_crowdName {i : ℕ} (hi : i < 100) : noCase (crowdName i) = (crowdName i).toList := by
  have hdigit : ∀ d < 10, (Nat.digitChar d).toLower = Nat.digitChar d := by decide
  simp only [noCase, crowdName, String.toList_ofList, List.map_cons, List.map_nil,
    hdigit _ (show i / 10 < 10 by omega), hdigit _ (show i % 10 < 10 by omega)]
  rfl

/-- Each of the accounts is found under its name. -/
theorem crowd_findUser {i : ℕ} (hi : i < 100) : crowdDb.findUser (crowdName i) = some (crowdUser i) := by
  unfold Database.findUser crowdDb
  rw [List.find?_eq_some_iff_getElem]
  refine ⟨by simp [crowdUser, plainUser], i, by simpa using hi, by simp, fun j hj => ?_⟩
  -- those before have other names
  simp only [List.getElem_map, List.getElem_range, crowdUser, plainUser]
  rw [noCase_crowdName hi, noCase_crowdName (by omega)]
  simp only [Bool.not_eq_true', decide_eq_false_iff_not, String.toList_inj]
  intro hname
  have := crowdName_injective (by omega) hi hname
  omega

theorem crowd_checkUser {i : ℕ} (hi : i < 100) :
    checkUser .plain crowdDb (crowdName i) (crowdName i) "" false = some (crowdUser i) := by
  unfold checkUser
  rw [crowd_findUser hi]
  simp [crowdUser, plainUser]

/-- The next of the hundred users logs in. -/
theorem Crowd.login {n : ℕ} {s : Server} (h : Crowd n s) (hn : n < 100) :
    LoggedIn n ((s.step .plain .connect).step .plain
      (.request n (.login (some (crowdLogin n))) .plain)) := by
  have hconn : (s.step .plain .connect).conns.get? n = some {} := by
    rw [show (s.step .plain .connect).conns = s.conns.set s.nextConn {} from rfl, h.nextConn,
      Table.get?_set_self]
  have hlogin : loginCheck .plain .plain ⟨s.db, s.shared, {}⟩ (some (crowdLogin n)) =
      .ok (adoptUser s.shared {} (crowdUser n) "",
        ⟨crowdUser n, crowdLogin n, getRelationships s.db (crowdUser n).userId true⟩) := by
    unfold loginCheck
    have hcheck := crowd_checkUser hn
    have hfree := h.clients (n + 1) (by omega)
    simp only [h.db, crowdLogin]
    rw [show Services.plain.config.emailValidated = false from rfl, hcheck]
    simp only [crowdUser, plainUser, hfree]
    rfl
  have hstep : (s.step .plain .connect).step .plain
      (.request n (.login (some (crowdLogin n))) .plain) =
      { s with
        shared := loginRegister s.shared n
          ⟨crowdUser n, crowdLogin n, getRelationships s.db (crowdUser n).userId true⟩
        conns := (s.step .plain .connect).conns.set n (adoptUser s.shared {} (crowdUser n) "")
        nextConn := s.nextConn + 1 } := by
    generalize hs : s.step .plain .connect = s' at hconn
    unfold Server.step
    simp only [hconn]
    subst hs
    unfold dispatchCommand
    simp only [Server.step, cmdLogin, hlogin]
    rfl
  rw [hstep]
  refine ⟨h.db, h.groups, congrArg (· + 1) h.nextConn, ⟨_, Table.get?_set_self, rfl, rfl, ?_⟩,
    fun i hi => ?_, h.nextRoom, h.room⟩
  · simp [adoptUser, h.groups]
  · have hfriends : (getRelationships s.db (crowdUser n).userId true).friends = [] := by
      rw [h.db]
      rfl
    have hne : (i : ℤ) ≠ (crowdUser n).userId := by
      simp only [crowdUser, plainUser]
      omega
    simp only [loginRegister, usageOnLogin, hfriends, List.foldl_nil]
    rw [Table.get?_set_ne hne]
    exact h.clients i (by omega)

theorem slotOf_crowdId (j : ℕ) : slotOf (crowdId j) = min j 65 := by
  unfold slotOf crowdId
  rw [Nat.shiftRight_eq_div_pow]
  omega

theorem Filled.taken_iff {n : ℕ} (h : Filled n room) {slot : ℕ} :
    room.taken slot = true ↔ ∃ j, 1 ≤ j ∧ j ≤ n ∧ min j 65 = slot := by
  rw [ShadNet.taken_iff]
  constructor
  · rintro ⟨mid, m, hm, hslot⟩
    obtain ⟨j, h1, hn, rfl⟩ := (h.ids mid).mp ⟨m, hm⟩
    rw [h.stored _ m hm, slotOf_crowdId] at hslot
    exact ⟨j, h1, hn, hslot⟩
  · rintro ⟨j, h1, hn, hslot⟩
    obtain ⟨m, hm⟩ := (h.ids (crowdId j)).mpr ⟨j, h1, hn, rfl⟩
    exact ⟨_, m, hm, by rw [h.stored _ m hm, slotOf_crowdId, hslot]⟩

theorem Filled.freeSlot {n : ℕ} (h : Filled n room) : room.freeSlot = min (n + 1) 65 := by
  by_cases hn : n < 64
  · have hfree : room.taken (n + 1) = false := by
      rw [← Bool.not_eq_true, h.taken_iff]
      omega
    obtain ⟨hle, hnot⟩ := freeSlot_free (by omega) (by omega) hfree
    rw [← Bool.not_eq_true, h.taken_iff] at hnot
    have hpos := (freeSlot_range room).1
    -- the slots up to `n` are taken
    by_contra hne
    exact hnot ⟨room.freeSlot, hpos, by omega, by omega⟩
  · rw [min_eq_right (by omega)]
    exact freeSlot_eq fun slot h1 h64 => h.taken_iff.mpr ⟨slot, h1, by omega, by omega⟩

/-- The id that the next member gets in the filled room. -/
theorem Filled.allocMemberId {n : ℕ} (h : Filled n room) : room.allocMemberId = crowdId (n + 1) := by
  rw [allocMemberId_eq, h.freeSlot, h.counter]
  unfold crowdId
  omega

/-- The next user is let in. -/
theorem Filled.admits {n : ℕ} (h : Filled n room) (hn : n < 100) {info : ClientInfo}
    (hinfo : info.npid = crowdName n) (env : MatchingEnv) :
    room.admits info env { roomId := 1 } = true := by
  have hfull : room.isFull = false := by
    have := h.size
    have := h.maxSlot
    simp only [Room.isFull, decide_eq_false_iff_not]
    omega
  have hnew : room.findByNpid env.order info.npid = none := by
    rw [findByNpid_eq_none, hinfo]
    intro mid m hm hname
    obtain ⟨⟨j, hj, hnpid⟩, -⟩ := h.members mid m hm
    have := crowdName_injective (by omega) hn (hnpid.symm.trans hname)
    omega
  have hrefuses : room.refuses info = false := by
    obtain ⟨hau, haa, hbu, hba⟩ := h.lists
    simp [Room.refuses, hau, haa, hbu, hba]
  have hblocks : ((room.members.inOrder env.order).any fun e =>
      (createJoiner info env { roomId := 1 }).blocks e.2) = false := by
    rw [List.any_eq_false]
    rintro ⟨mid, m⟩ he
    obtain ⟨-, hbu, hba⟩ := h.members mid m (Table.mem_inOrder.mp he)
    simp [RoomMember.blocks, createJoiner, hbu, hba]
  unfold Room.admits
  rw [hfull, hnew, hrefuses, hblocks]
  rfl

theorem join_memberIdCounter (room : Room) (joiner : RoomMember) :
    (room.join joiner).memberIdCounter = room.nextCounter := by
  unfold Room.join
  simp only
  split <;> rfl

theorem join_blockedUsers (room : Room) (joiner : RoomMember) :
    (room.join joiner).blockedUsers = room.blockedUsers := by
  unfold Room.join
  simp only
  split <;> rfl

/-- The next user fills the room further. -/
theorem Filled.join {n : ℕ} (h : Filled n room) {joiner : RoomMember}
    (hnpid : joiner.npid = crowdName n) (hlists : joiner.blockedUsers = [] ∧
      joiner.blockedAccountIds = []) : Filled (n + 1) (room.join joiner) := by
  have hseats := join_seats room joiner
  have hof : ∀ {mid m}, (room.join joiner).members.get? mid = some m →
      (mid = room.allocMemberId ∧ m = room.newMember joiner) ∨
        (mid ≠ room.allocMemberId ∧ room.members.get? mid = some m) := by
    intro mid m hm
    rw [hseats.members] at hm
    exact of_addMember hm
  refine ⟨hseats.maxSlot.trans h.maxSlot, ?_, ?_, fun mid m hm => ?_, fun mid => ?_,
    fun mid m hm => ?_, ?_⟩
  · rw [join_memberIdCounter, nextCounter_eq, h.counter]
    omega
  · have hterms := join_terms room joiner
    rw [hterms.allowedUsers, hterms.allowedAccountIds, hterms.blockedAccountIds, join_blockedUsers]
    exact h.lists
  · rcases hof hm with ⟨rfl, rfl⟩ | ⟨-, hold⟩
    · rfl
    · exact h.stored mid m hold
  · -- the ids are the old ones and the new one
    rw [hseats.members, addMember_get?]
    split
    · rename_i heq
      exact iff_of_true ⟨_, rfl⟩ ⟨n + 1, by omega, le_rfl, heq.trans h.allocMemberId⟩
    · rename_i hne
      rw [h.ids]
      constructor
      · rintro ⟨j, h1, hj, rfl⟩
        exact ⟨j, h1, by omega, rfl⟩
      · rintro ⟨j, h1, hj, rfl⟩
        refine ⟨j, h1, ?_, rfl⟩
        by_contra hlast
        obtain rfl : j = n + 1 := by omega
        exact hne h.allocMemberId.symm
  · rcases hof hm with ⟨-, rfl⟩ | ⟨-, hold⟩
    · exact ⟨⟨n, by omega, hnpid⟩, hlists⟩
    · obtain ⟨⟨j, hj, hname⟩, hrest⟩ := h.members mid m hold
      exact ⟨⟨j, by omega, hname⟩, hrest⟩
  · rw [hseats.members]
    have hle := h.size
    change (room.members.set _ _).size ≤ n + 1
    cases hold : room.members.get? room.allocMemberId with
    | none => rw [Table.size_set_of_none hold]; omega
    | some m => rw [Table.size_set_of_some hold]; omega

theorem created_filled (info : ClientInfo) (env : MatchingEnv) (own : MatchingSessionState)
    (hnpid : info.npid = crowdName 0) :
    Filled 1 (createdRoom info env own 1 { maxSlots := 100 }).1 := by
  have hok : JustCreated info { maxSlots := 100 } (createdRoom info env own 1 { maxSlots := 100 }).1
      (createdRoom info env own 1 { maxSlots := 100 }).2 := createdRoom_ok
  have hcounter : (createdRoom info env own 1 { maxSlots := 100 }).1.memberIdCounter = 1 := by
    change (0 + 1) &&& 0xF = 1
    decide
  refine ⟨hok.maxSlot, hcounter, ⟨rfl, rfl, rfl, rfl⟩, hok.membersOk.stored, fun mid => ?_,
    fun mid m hm => ?_, hok.size.le⟩
  · rw [hok.get?]
    have hid : (createdRoom info env own 1 { maxSlots := 100 }).2.memberId = crowdId 1 := by
      refine (allocMemberId_eq _).trans ?_
      rw [freeSlot_empty rfl]
      rfl
    rw [hid]
    constructor
    · rintro ⟨m, hm⟩
      split at hm
      · rename_i heq
        exact ⟨1, le_rfl, le_rfl, heq⟩
      · cases hm
    · rintro ⟨j, h1, hj, rfl⟩
      obtain rfl : j = 1 := by omega
      exact ⟨_, if_pos rfl⟩
  · obtain ⟨rfl, rfl⟩ := hok.only hm
    exact ⟨⟨0, by omega, hok.npid.trans hnpid⟩, rfl, rfl⟩

/-- What a matching command does to the server. -/
theorem step_onRooms {s : Server} {c : ConnId} {session : ClientSession} {cmd : Command} {env : Env}
    {f : MatchingState → MatchingResult} (hc : s.conns.get? c = some session)
    (hauth : session.authenticated = true)
    (hf : cmd.onRooms session.info env.matching = some f) :
    s.step sv (.request c cmd env) = { s with
      shared := { s.shared with matching := (f ⟨s.shared.matching, session.matching⟩).1.shared }
      conns := s.conns.set c { session with
        matching := (f ⟨s.shared.matching, session.matching⟩).1.own } } := by
  have heq : dispatchCommand sv env c ⟨s.db, s.shared, session⟩ cmd = _ := dispatch_onRooms hauth hf
  simp only [Server.step, hc]
  rw [heq]
  rfl

/-- A user who has logged in enters the room. -/
theorem LoggedIn.enter {n : ℕ} {s : Server} (h : LoggedIn n s) (hn : n < 100) :
    Crowd (n + 1) (s.step .plain (.request n (crowdEnters n) .plain)) := by
  obtain ⟨session, hc, hauth, hname, hkey⟩ := h.conn
  by_cases hzero : n = 0
  · subst hzero
    have hstep : s.step .plain (.request 0 (crowdEnters 0) .plain) = _ := step_onRooms hc hauth rfl
    have hrooms : OpAt s.shared.matching (cmdCreateRoom session.info Env.plain.matching
      ⟨s.shared.matching, session.matching⟩ (some { maxSlots := 100 })).1.shared _ _ :=
        cmdCreateRoom_op { maxSlots := 100 }
    specialize hrooms ("", 1)
    rw [if_pos (by rw [hkey, h.nextRoom rfl])] at hrooms
    simp only [RoomOp.run, h.nextRoom rfl] at hrooms
    rw [hstep]
    refine ⟨h.db, ?_, h.nextConn, h.clients, by simp,
      fun _ => ⟨_, hrooms, created_filled _ _ _ hname⟩⟩
    rw [← h.groups]
    simp only [cmdCreateRoom, MatchingSharedState.insertRoom]
    split
    · rfl
    · split <;> rfl
  · obtain ⟨room, hroom, hfilled⟩ := h.room (by omega)
    have henters : crowdEnters n = .joinRoom (some { roomId := 1 }) := if_neg hzero
    rw [henters]
    have hstep : s.step .plain (.request n (.joinRoom (some { roomId := 1 })) .plain) = _ :=
      step_onRooms hc hauth rfl
    have hrooms : OpAt s.shared.matching (cmdJoinRoom session.info Env.plain.matching
      ⟨s.shared.matching, session.matching⟩ (some { roomId := 1 })).1.shared _ _ :=
        cmdJoinRoom_op { roomId := 1 }
    specialize hrooms ("", 1)
    rw [if_pos (by rw [hkey])] at hrooms
    simp only [hkey, hroom, RoomOp.run, hfilled.admits hn hname, if_true] at hrooms
    rw [hstep]
    refine ⟨h.db, ?_, h.nextConn, h.clients, by simp,
      fun _ => ⟨_, hrooms, hfilled.join hname ⟨rfl, rfl⟩⟩⟩
    rw [← h.groups]
    rcases cmdJoinRoom_cases session.info Env.plain.matching ⟨s.shared.matching, session.matching⟩
      (some { roomId := 1 }) with ⟨hsame, -⟩ | ⟨r, room, _, _, _, -, -, -, -, hshared, -⟩
    · simp only [hsame]
    · simp only [hshared, MatchingSharedState.setRoom]

/-- The state after `n` users and the events `es`. -/
def crowdServer (n : ℕ) (es : List Event) : Server :=
  configuredServerAfter .plain crowdDb ∅ (crowdEvents n ++ es) (crowdEvents n ++ es).length

theorem crowdServer_append (n : ℕ) (es es' : List Event) :
    crowdServer n (es ++ es') = es'.foldl (Server.step .plain) (crowdServer n es) := by
  simp only [crowdServer, configuredServerAfter, runAt, List.take_length, List.foldl_append]

theorem crowdServer_succ (n : ℕ) : crowdServer (n + 1) [] = crowdServer n
    [.connect, .request n (.login (some (crowdLogin n))) .plain, .request n (crowdEnters n) .plain] := by
  simp only [crowdServer, crowdEvents, List.append_nil]

/-- The users enter one after another, up to a hundred. -/
theorem crowd {n : ℕ} (hn : n ≤ 100) : Crowd n (crowdServer n []) := by
  induction n with
  | zero => exact ⟨rfl, rfl, rfl, fun _ _ => rfl, fun _ => rfl, nofun⟩
  | succ n ih =>
    have hstep := crowdServer_append n [] [.connect,
      .request n (.login (some (crowdLogin n))) .plain, .request n (crowdEnters n) .plain]
    rw [crowdServer_succ, ← List.nil_append [_, _, _], hstep]
    exact ((ih (by omega)).login (by omega)).enter (by omega)

/-- In a room with 100 slots the user number 81 takes the place of the user number 65. -/
theorem crowded_join_overwrites :
    ¬ ∀ sv db titleGroups events n e, (configuredServerAfter sv db titleGroups events n).Joins sv e →
      ∃ room room' memberId,
        (configuredServerAfter sv db titleGroups events n).JoinsAs sv e room room' memberId ∧
        JoinOk room room' memberId := by
  intro h
  obtain ⟨n, hn⟩ : ∃ n, n = 80 := ⟨80, rfl⟩
  -- 80 users are in, and the next one has logged in
  have hlogged : LoggedIn n (crowdServer n
      [.connect, .request n (.login (some (crowdLogin n))) .plain]) := by
    have heq := crowdServer_append n [] [.connect, .request n (.login (some (crowdLogin n))) .plain]
    rw [List.nil_append] at heq
    rw [heq]
    exact (crowd (by omega)).login (by omega)
  obtain ⟨session, hc, hauth, hname, hkey⟩ := hlogged.conn
  obtain ⟨filled, hfilled, hroom⟩ := hlogged.room (by omega)
  have hadmits := hroom.admits (by omega) hname Env.plain.matching
  generalize hserver : crowdServer n
    [.connect, .request n (.login (some (crowdLogin n))) .plain] = server at hlogged hc hfilled
  have hjoins : server.Joins .plain (.request n (.joinRoom (some { roomId := 1 })) .plain) := by
    refine ⟨session, hc, ?_⟩
    have heq : dispatchCommand .plain .plain n ⟨server.db, server.shared, session⟩
        (.joinRoom (some { roomId := 1 })) = _ := dispatch_onRooms hauth rfl
    rw [heq]
    exact cmdJoinRoom_admits_iff.mpr ⟨_, by rw [hkey]; exact hfilled, hadmits⟩
  rw [← hserver] at hjoins
  obtain ⟨room, room', memberId, hjoin, hok⟩ := h _ _ _ _ _ _ hjoins
  change (crowdServer n _).JoinsAs _ _ _ _ _ at hjoin
  rw [hserver] at hjoin
  obtain ⟨c, req, env, session', _, _, _, _, he, hc', -, hbefore, hafter⟩ := hjoin
  cases he
  obtain rfl : session = session' := Option.some.inj (hc.symm.trans hc')
  rw [hkey] at hbefore hafter
  obtain rfl : filled = room := Option.some.inj (hfilled.symm.trans hbefore)
  have hjoined : room' = filled.join (createJoiner session.info Env.plain.matching { roomId := 1 }) := by
    have hop : server.roomOp (.request n (.joinRoom (some { roomId := 1 })) .plain) =
        some (("", 1), .join session.info Env.plain.matching { roomId := 1 }) := by
      rw [roomOp_request hc hauth, ClientSession.roomOp, hkey]
    have hstep := (step_room .plain server _ ("", 1)).symm.trans hafter
    simp only [hop, hfilled, RoomOp.run, hadmits, if_true] at hstep
    exact (Option.some.inj hstep).symm
  -- he gets the id of a member, and so the room does not grow
  obtain ⟨m, hm⟩ : ∃ m, filled.members.get? filled.allocMemberId = some m := by
    rw [hroom.allocMemberId, hroom.ids]
    exact ⟨65, by omega, by omega, by subst hn; decide⟩
  have hsize : room'.members.size = filled.members.size := by
    rw [hjoined, (join_seats _ _).members]
    exact Table.size_set_of_some hm
  have hgrown := hok.size
  omega

end ShadNet
