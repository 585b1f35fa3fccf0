import ShadNet.Proof.RoomStep

/-!
# Members of connections that are gone

A run is watched by a record of seats: for every room and member id the connection whose
`CreateRoom` or `JoinRoom` was last answered with them.

* `MembersLive`: whoever is in a room was put there by a connection that is still live.
* `CleanExit`: a connection that goes has members in one room only, the one that its own state
  names, under its present npid, and it is logged in and in a context; and none of its requests
  that are served after its cleanup puts a member into a room.
* `members_live_iff`: `MembersLive` holds along a run exactly when every exit is clean.
-/

namespace ShadNet

open Lib

variable {sv : Services} {env : Env} {c : ConnId} {m m' : MatchingSharedState} {key : RoomKey}
  {mid : ℕ}

/-- Who has put the member of an id into a room. -/
abbrev Seats := RoomKey → ℕ → Option ConnId

/-- The place of a member belongs to the connection from here on. -/
def Seats.take (seats : Seats) (key : RoomKey) (mid : ℕ) (c : ConnId) : Seats := fun key' mid' =>
  if key' = key ∧ mid' = mid then some c else seats key' mid'

/-- What the reply to a request of connection `c` tells. -/
def Seats.next (seats : Seats) (c : ConnId) (matchingKey : String) : Option Reply → Seats
  | some (.matching (.createRoom roomId _ _ _ memberId _ _ _ _)) =>
    seats.take (matchingKey, roomId) memberId c
  | some (.matching (.joinRoom roomId memberId _ _ _ _)) =>
    seats.take (matchingKey, roomId) memberId c
  | _ => seats

/-- A server and who has put its members into their rooms. -/
structure WatchedServer where
  server : Server
  seats : Seats

/-- The server, and who sits where, after an event. -/
def watchServer (sv : Services) (w : WatchedServer) (e : Event) : WatchedServer where
  server := w.server.step sv e
  seats := match e with
    | .request c cmd env =>
      match w.server.conns.get? c with
      | none => w.seats
      | some session => w.seats.next c session.matching.matchingKey
          (dispatchCommand sv env c ⟨w.server.db, w.server.shared, session⟩ cmd).2.2
    | _ => w.seats

/-- The server after the first `n` events, watched from the start. -/
def watchedServerAfter (sv : Services) (db : Database) (events : List Event) (n : ℕ) :
    WatchedServer :=
  runAt (watchServer sv) ⟨{ db }, fun _ _ => none⟩ events n

/-- A member with an id in a room. -/
def MatchingSharedState.IsMember (m : MatchingSharedState) (key : RoomKey) (mid : ℕ)
    (p : RoomMember) : Prop :=
  ∃ room, m.rooms.get? key = some room ∧ room.members.get? mid = some p

/-- Every member sits there for a connection that is live. -/
def MembersLive (w : WatchedServer) : Prop :=
  ∀ key mid p, w.server.shared.matching.IsMember key mid p →
    ∃ c session, w.seats key mid = some c ∧ w.server.live c = some session

/-- The cleanup of a connection looks for its member where it is. -/
structure Found (session : ClientSession) (key : RoomKey) (p : RoomMember) : Prop where
  authenticated : session.authenticated = true
  initialized : session.matching.initialized = true
  entered : session.matching.roomId ≠ 0
  key : key = (session.matching.matchingKey, session.matching.roomId)
  npid : p.npid = session.info.npid

/-- The request puts a member into a room. -/
def Command.Enters (cs : CommandState) (env : Env) : Command → Prop
  | .createRoom req => cs.session.authenticated = true ∧ req.isSome = true
  | .joinRoom (some req) => cs.session.authenticated = true ∧ ∃ room,
      cs.shared.matching.rooms.get? (cs.session.matching.matchingKey, req.roomId) = some room ∧
      room.admits cs.session.info env.matching req = true
  | _ => False

/-- Of a disconnect: the cleanup finds every member that the connection has put into a room. Of a
request that comes after the cleanup: it puts no member into a room. -/
def CleanExit (w : WatchedServer) : Event → Prop
  | .disconnect c _ => ∀ session, w.server.live c = some session →
      ∀ key mid p, w.server.shared.matching.IsMember key mid p → w.seats key mid = some c →
        Found session key p
  | .request c cmd env => c ∈ w.server.gone → ∀ session, w.server.conns.get? c = some session →
      ¬ cmd.Enters ⟨w.server.db, w.server.shared, session⟩ env
  | .connect => True

/-! ## Who is there after a command -/

/-- Whoever is in a room was there before. -/
def NoneEnters (m m' : MatchingSharedState) : Prop :=
  ∀ key mid p', m'.IsMember key mid p' → ∃ p, m.IsMember key mid p

theorem NoneEnters.of_rooms (h : m'.rooms = m.rooms) : NoneEnters m m' := by
  rintro key mid p ⟨room, hroom, hp⟩
  exact ⟨p, room, h ▸ hroom, hp⟩

/-- A room that keeps its members lets nobody in. -/
theorem NoneEnters.set {room room' : Room} (hroom : m.rooms.get? key = some room)
    (hremain : Remain room room') (h : m'.rooms = m.rooms.set key room') : NoneEnters m m' := by
  rintro key' mid p ⟨room'', hroom'', hp⟩
  rw [h] at hroom''
  rcases Table.of_get?_set hroom'' with ⟨rfl, rfl⟩ | ⟨-, hold⟩
  · obtain ⟨p0, hp0, -⟩ := hremain mid p hp
    exact ⟨p0, room, hroom, hp0⟩
  · exact ⟨p, room'', hold, hp⟩

theorem NoneEnters.del (h : m'.rooms = m.rooms.del key) : NoneEnters m m' := by
  rintro key' mid p ⟨room, hroom, hp⟩
  rw [h] at hroom
  exact ⟨p, room, (Table.of_get?_del hroom).2, hp⟩

/-- Nobody comes in when somebody leaves. -/
theorem leaveRoom_noneEnters (hall : AllRooms MembersOk m) {npid : String} {order : Order ℕ}
    {left : ℕ} (h : leaveRoom m key npid order = some (m', left)) : NoneEnters m m' := by
  obtain ⟨room, me, hroom, hme, -, ⟨-, hrooms⟩ | ⟨hleft, hrooms⟩⟩ := leaveRoom_cases h
  · exact .del hrooms
  · -- whoever is in the room when its owner has been replaced was there before the leave
    refine .set hroom ?_ hrooms
    intro mid p hp
    have hdrop := (hall _ _ hroom).remain (dropMember_remain room me.memberId)
    obtain ⟨p0, hp0, hid, hnpid⟩ :=
      afterLeave_remain hdrop (dropMember_size_pos hleft) order _ mid p hp
    exact ⟨p0, (dropMember_get?_some.mp hp0).2, hid, hnpid⟩

/-- After a command of connection `c`, whoever is in a room either was put there by it or was
there before, in a seat that the command did not take. -/
def SeatsStep (c : ConnId) (m m' : MatchingSharedState) (seats seats' : Seats) : Prop :=
  ∀ key mid p', m'.IsMember key mid p' → seats' key mid = some c ∨
    (seats' key mid = seats key mid ∧ ∃ p, m.IsMember key mid p)

theorem NoneEnters.seatsStep (h : NoneEnters m m') (c : ConnId) (seats : Seats) :
    SeatsStep c m m' seats seats :=
  fun key mid p' hp' => Or.inr ⟨rfl, h key mid p' hp'⟩

/-- One new member comes in, and takes a seat. -/
theorem SeatsStep.take {room' : Room} (hrooms : m'.rooms = m.rooms.set key room')
    (hnew : ∀ mid' p', room'.members.get? mid' = some p' → mid' = mid ∨
      ∃ p, m.IsMember key mid' p) (c : ConnId) (seats : Seats) :
    SeatsStep c m m' seats (seats.take key mid c) := by
  rintro key' mid' p' ⟨room, hroom, hp'⟩
  rw [hrooms] at hroom
  by_cases hseat : key' = key ∧ mid' = mid
  · exact Or.inl (if_pos hseat)
  · refine Or.inr ⟨if_neg hseat, ?_⟩
    rcases Table.of_get?_set hroom with ⟨rfl, rfl⟩ | ⟨-, hold⟩
    · exact (hnew mid' p' hp').resolve_left fun h => hseat ⟨rfl, h⟩
    · exact ⟨p', room, hold, hp'⟩

variable {info : ClientInfo} {menv : MatchingEnv} {s : MatchingState} {seats : Seats}

/-- The creator sits where the reply says. -/
theorem cmdCreateRoom_seats (req : Option CreateRoomRequest) :
    SeatsStep c s.shared (cmdCreateRoom info menv s req).1.shared seats
      (seats.next c s.own.matchingKey ((cmdCreateRoom info menv s req).2.2.map .matching)) := by
  cases req with
  | none => exact (NoneEnters.of_rooms rfl).seatsStep c seats
  | some r =>
    refine SeatsStep.take insertRoom_rooms ?_ c seats
    intro mid p hp
    exact Or.inl (createdRoom_ok.only hp).1

/-- Whoever joins sits where the reply says. -/
theorem cmdJoinRoom_seats (req : Option JoinRoomRequest) :
    SeatsStep c s.shared (cmdJoinRoom info menv s req).1.shared seats
      (seats.next c s.own.matchingKey ((cmdJoinRoom info menv s req).2.2.map .matching)) := by
  rcases cmdJoinRoom_cases info menv s req with
    ⟨hsame, hreply, -⟩ | ⟨r, room, _, _, _, -, hroom, -, -, hshared, -, hreply⟩
  · rw [hsame, hreply]
    exact (NoneEnters.of_rooms rfl).seatsStep c seats
  · rw [hshared, hreply]
    refine SeatsStep.take rfl ?_ c seats
    intro mid p hp
    rw [(join_seats _ (createJoiner info menv r)).members] at hp
    rcases of_addMember hp with ⟨hmid, -⟩ | ⟨-, hold⟩
    · exact Or.inl hmid
    · exact Or.inr ⟨p, room, hroom, hold⟩

/-- The answer of a command that seats nobody. -/
def SeatsNobody : Option MatchingReply → Prop
  | some (.createRoom ..) => False
  | some (.joinRoom ..) => False
  | _ => True

theorem SeatsNobody.next {reply : Option MatchingReply} (h : SeatsNobody reply)
    (matchingKey : String) : seats.next c matchingKey (reply.map .matching) = seats := by
  cases reply with
  | none => rfl
  | some rep =>
    cases rep with
    | createRoom => exact h.elim
    | joinRoom => exact h.elim
    | room roomId => rfl

theorem SameSeats.remain {room room' : Room} (h : SameSeats room room') : Remain room room' :=
  fun _ p hp => ⟨p, h.members ▸ hp, rfl, rfl⟩

/-- A command that lets nobody in. -/
structure NoEntry (s : MatchingState) (r : MatchingResult) : Prop where
  noneEnters : NoneEnters s.shared r.1.shared
  reply : SeatsNobody r.2.2

theorem NoEntry.refuse (s : MatchingState) (e : ErrorType) : NoEntry s (s, e, none) :=
  ⟨.of_rooms rfl, trivial⟩

/-- Nobody comes in. -/
theorem cmdLeaveRoom_noEntry (hall : AllRooms MembersOk s.shared) (roomId : Option ℕ) :
    NoEntry s (cmdLeaveRoom info menv s roomId) := by
  rcases cmdLeaveRoom_cases info menv s roomId with ⟨e, heq⟩ | ⟨rid, m', mid, -, hleave, heq⟩
  · rw [heq]
    exact .refuse s e
  · rw [heq]
    exact ⟨leaveRoom_noneEnters hall hleave, trivial⟩

theorem cmdKickoutRoomMember_noEntry (req : Option KickoutRoomMemberRequest) :
    NoEntry s (cmdKickoutRoomMember info menv s req) := by
  rcases cmdKickoutRoomMember_cases info menv s req with
    ⟨e, heq⟩ | ⟨r, room, initiator, target, -, hroom, -, -, -, -, heq⟩
  · rw [heq]
    exact .refuse s e
  · rw [heq]
    refine ⟨.set hroom ?_ rfl, trivial⟩
    intro mid' p hp
    rw [(kick_seats room target _ _).members] at hp
    exact dropMember_remain room _ mid' p hp

theorem cmdSetRoomDataInternal_noEntry (req : Option SetRoomDataInternalRequest) :
    NoEntry s (cmdSetRoomDataInternal info menv s req) := by
  rcases cmdSetRoomDataInternal_cases info menv s req with
    ⟨e, heq⟩ | ⟨r, room, setterId, -, hroom, heq⟩
  · rw [heq]
    exact .refuse s e
  · rw [heq]
    exact ⟨.set hroom (setDataInternal_seats room r _ _).remain rfl, trivial⟩

theorem cmdSetRoomDataExternal_noEntry (req : Option SetRoomDataExternalRequest) :
    NoEntry s (cmdSetRoomDataExternal s req) := by
  rcases cmdSetRoomDataExternal_cases s req with ⟨e, heq⟩ | ⟨r, room, -, hroom, heq⟩
  · rw [heq]
    exact .refuse s e
  · rw [heq]
    exact ⟨.set hroom (setDataExternal_seats room r).remain rfl, trivial⟩

/-- **Who enters** by a command, if anybody. -/
theorem dispatch_enters (sv : Services) (c : ConnId) (seats : Seats) {cs : CommandState} {cmd : Command}
    (h : cmd.Enters cs env) :
    ∃ key mid p, (dispatchCommand sv env c cs cmd).1.shared.matching.IsMember key mid p ∧
      seats.next c cs.session.matching.matchingKey (dispatchCommand sv env c cs cmd).2.2 key mid =
        some c := by
  unfold Command.Enters at h
  split at h
  · rename_i req
    obtain ⟨hauth, hsome⟩ := h
    obtain ⟨r, rfl⟩ := Option.isSome_iff_exists.mp hsome
    rw [dispatch_onRooms hauth rfl]
    have hnew : JustCreated cs.session.info r (createdRoom cs.session.info env.matching
        cs.session.matching cs.shared.matching.nextRoomId r).1 _ := createdRoom_ok
    refine ⟨(cs.session.matching.matchingKey, cs.shared.matching.nextRoomId), _, _,
      ⟨_, ?_, (hnew.get? _).trans (if_pos rfl)⟩, if_pos ⟨rfl, rfl⟩⟩
    show (MatchingSharedState.insertRoom _ _ _).rooms.get? _ = _
    rw [insertRoom_rooms]
    exact Table.get?_set_self
  · rename_i req
    obtain ⟨hauth, hadmits⟩ := h
    rw [dispatch_onRooms hauth rfl]
    rcases cmdJoinRoom_cases cs.session.info env.matching ⟨cs.shared.matching, cs.session.matching⟩
      (some req) with ⟨-, -, hfail⟩ | ⟨r, room, _, _, _, hr, hroom, -, -, hshared, -, hreply⟩
    · exact absurd (cmdJoinRoom_admits_iff.mpr hadmits) hfail
    · obtain rfl := Option.some.inj hr
      have hnew : (room.join (createJoiner cs.session.info env.matching req)).members.get?
          room.allocMemberId = some (room.newMember (createJoiner cs.session.info env.matching req)) := by
        rw [(join_seats room _).members, addMember_get?, if_pos rfl]
      refine ⟨(cs.session.matching.matchingKey, req.roomId), room.allocMemberId, _,
        ⟨_, by rw [onMatching, hshared]; exact Table.get?_set_self, hnew⟩, ?_⟩
      rw [onMatching, hreply]
      exact if_pos ⟨rfl, rfl⟩
  · exact h.elim

/-- A command of another kind lets nobody in. -/
theorem dispatch_noEntry (sv : Services) (c : ConnId) (seats : Seats) (cs : CommandState) {cmd : Command}
    (hall : AllRooms MembersOk cs.shared.matching) (h : ¬ cmd.Enters cs env) :
    NoneEnters cs.shared.matching (dispatchCommand sv env c cs cmd).1.shared.matching ∧
      seats.next c cs.session.matching.matchingKey (dispatchCommand sv env c cs cmd).2.2 = seats := by
  rcases dispatch_cases sv env c cs cmd with ⟨f, hauth, hf, heq⟩ | hother
  · have hno : NoEntry ⟨cs.shared.matching, cs.session.matching⟩
        (f ⟨cs.shared.matching, cs.session.matching⟩) := by
      cases cmd <;> simp only [Command.onRooms, reduceCtorEq, Option.some.injEq] at hf <;> subst hf
      case createRoom req =>
        cases req with
        | none => exact .refuse _ _
        | some r => exact absurd ⟨hauth, rfl⟩ h
      case joinRoom req =>
        rcases cmdJoinRoom_cases cs.session.info env.matching
          ⟨cs.shared.matching, cs.session.matching⟩ req with
          ⟨hsame, hreply, -⟩ | ⟨r, room, _, _, _, rfl, -, -, -, -, hok, -⟩
        · exact ⟨.of_rooms (by rw [hsame]), by rw [hreply]; trivial⟩
        · exact absurd ⟨hauth, cmdJoinRoom_admits_iff.mp hok⟩ h
      case leaveRoom roomId => exact cmdLeaveRoom_noEntry hall roomId
      case kickoutRoomMember req => exact cmdKickoutRoomMember_noEntry req
      case setRoomDataInternal req => exact cmdSetRoomDataInternal_noEntry req
      case setRoomDataExternal req => exact cmdSetRoomDataExternal_noEntry req
    rw [heq]
    exact ⟨hno.noneEnters, hno.reply.next _⟩
  · refine ⟨.of_rooms (congrArg _ hother.matching), ?_⟩
    unfold Seats.next
    split
    · rename_i heq
      exact absurd heq (hother.reply _)
    · rename_i heq
      exact absurd heq (hother.reply _)
    · rfl

/-- **A command** lets nobody in but its caller, who sits where the reply says. -/
theorem dispatch_seats (cs : CommandState) (hall : AllRooms MembersOk cs.shared.matching)
    (cmd : Command) :
    SeatsStep c cs.shared.matching (dispatchCommand sv env c cs cmd).1.shared.matching seats
      (seats.next c cs.session.matching.matchingKey (dispatchCommand sv env c cs cmd).2.2) := by
  by_cases henters : cmd.Enters cs env
  · unfold Command.Enters at henters
    split at henters
    · rw [dispatch_onRooms henters.1 rfl]
      exact cmdCreateRoom_seats _
    · rw [dispatch_onRooms henters.1 rfl]
      exact cmdJoinRoom_seats _
    · exact henters.elim
  · obtain ⟨hnone, hsame⟩ := dispatch_noEntry sv c seats cs hall henters
    rw [hsame]
    exact hnone.seatsStep c seats

/-! ## Who is there after a disconnect -/

/-- Whoever stays in a room stays in his slot. -/
theorem afterLeave_keeps {room : Room} (h : MembersOk room) (hsize : 0 < room.members.size)
    (order : Order ℕ) (wasOwner : Bool) {p : RoomMember} (hp : room.members.get? mid = some p) :
    ∃ p', (room.afterLeave order wasOwner).members.get? mid = some p' := by
  cases wasOwner with
  | false => exact ⟨p, hp⟩
  | true =>
    obtain ⟨o, ho⟩ := afterLeave_true h hsize order
    rw [ho.get?]
    split
    · exact ⟨_, rfl⟩
    · exact ⟨p, hp⟩

/-- Nobody with the npid of the user who has left is in the room. -/
theorem leaveRoom_gone (hall : AllRooms MembersOk m) {npid : String} {order : Order ℕ} {left : ℕ}
    (h : leaveRoom m key npid order = some (m', left)) {p p' : RoomMember}
    (hp : m.IsMember key mid p) (hnpid : p.npid = npid) : ¬ m'.IsMember key mid p' := by
  rintro ⟨room', hroom', hp'⟩
  obtain ⟨room, hroom, hp⟩ := hp
  obtain ⟨room0, me, hroom0, hme, -, ⟨-, hrooms⟩ | ⟨hleft, hrooms⟩⟩ := leaveRoom_cases h
  · -- the room is gone
    rw [hrooms, Table.get?_del_self] at hroom'
    cases hroom'
  · -- npids are distinct, so the one who left is the member in question
    obtain rfl := Option.some.inj (hroom.symm.trans hroom0)
    have hok := hall _ _ hroom
    obtain ⟨hstored, hmenpid⟩ := hok.found hme
    have hmid : me.memberId = mid := hok.npids _ _ _ _ hstored hp (hmenpid.trans hnpid.symm)
    rw [hrooms, Table.get?_set_self] at hroom'
    obtain rfl := Option.some.inj hroom'
    have hdrop := hok.remain (dropMember_remain room me.memberId)
    obtain ⟨p0, hp0, -⟩ :=
      afterLeave_remain hdrop (dropMember_size_pos hleft) order _ mid p' hp'
    exact (dropMember_get?_some.mp hp0).1 hmid.symm

/-- Members of other rooms stay, and so do members with other npids. -/
theorem leaveRoom_stays (hall : AllRooms MembersOk m) {npid : String} {order : Order ℕ} {left : ℕ}
    {key' : RoomKey} (h : leaveRoom m key npid order = some (m', left)) {p : RoomMember}
    (hp : m.IsMember key' mid p) (hother : key' ≠ key ∨ p.npid ≠ npid) :
    ∃ p', m'.IsMember key' mid p' := by
  obtain ⟨room, hroom, hp⟩ := hp
  obtain ⟨room0, me, hroom0, hme, -, hrooms⟩ := leaveRoom_cases h
  by_cases hkey : key' = key
  · subst hkey
    obtain rfl := Option.some.inj (hroom.symm.trans hroom0)
    have hok := hall _ _ hroom
    have hmid : mid ≠ me.memberId := by
      rintro rfl
      obtain ⟨hstored, hmenpid⟩ := hok.found hme
      obtain rfl := Option.some.inj (hp.symm.trans hstored)
      exact hother.elim (fun h => h rfl) fun h => h hmenpid
    have hstay := dropMember_get?_some.mpr ⟨hmid, hp⟩
    rcases hrooms with ⟨hempty, -⟩ | ⟨hleft, hrooms⟩
    · -- a room with him in it is not empty
      have hpos := Table.size_pos_of_some hstay
      simp only [Room.isEmpty, decide_eq_true_eq] at hempty
      omega
    · have hdrop := hok.remain (dropMember_remain room me.memberId)
      obtain ⟨p', hp'⟩ := afterLeave_keeps hdrop (dropMember_size_pos hleft) order
        (decide (me.memberId = room.ownerMemberId)) hstay
      exact ⟨p', _, by rw [hrooms, Table.get?_set_self], hp'⟩
  · refine ⟨p, room, ?_, hp⟩
    rcases hrooms with ⟨-, hrooms⟩ | ⟨-, hrooms⟩
    · rw [hrooms, Table.get?_del_ne hkey, hroom]
    · rw [hrooms, Table.get?_set_ne hkey, hroom]

variable {session : ClientSession} {sh : SharedState}

/-- A disconnect lets nobody in. -/
theorem cleanup_noneEnters (hall : AllRooms MembersOk sh.matching) :
    NoneEnters sh.matching (cleanupOnDisconnect env session sh).matching := by
  rw [cleanupOnDisconnect_matching]
  split
  · rcases cleanupMatchingOnDisconnect_cases session.info env.matching.order
      ⟨sh.matching, session.matching⟩ with heq | ⟨m', mid, -, -, hleave, heq⟩
    · rw [heq]
      exact .of_rooms rfl
    · rw [heq]
      exact leaveRoom_noneEnters hall hleave
  · exact .of_rooms rfl

/-- A member whom the cleanup finds is gone after it. -/
theorem cleanup_gone (hall : AllRooms MembersOk sh.matching) {p p' : RoomMember}
    (hp : sh.matching.IsMember key mid p) (hfound : Found session key p) :
    ¬ (cleanupOnDisconnect env session sh).matching.IsMember key mid p' := by
  obtain ⟨hauth, hinit, hentered, rfl, hnpid⟩ := hfound
  rw [cleanupOnDisconnect_matching, if_pos hauth]
  unfold cleanupMatchingOnDisconnect doLeaveRoom
  simp only [hinit, Bool.not_true, Bool.false_eq_true, if_false, if_pos hentered]
  split
  · rename_i hleave
    -- the user would have been found
    obtain ⟨room, hroom, hp⟩ := hp
    unfold leaveRoom at hleave
    simp only [hroom] at hleave
    split at hleave
    · rename_i hnone
      exact absurd hnpid (findByNpid_eq_none.mp hnone mid p hp)
    · split at hleave <;> cases hleave
  · rename_i hleave
    exact leaveRoom_gone hall hleave hp hnpid

/-- A member whom the cleanup does not find stays in his room. -/
theorem cleanup_stays (env : Env) (hall : AllRooms MembersOk sh.matching) {p : RoomMember}
    (hp : sh.matching.IsMember key mid p) (hfound : ¬ Found session key p) :
    ∃ p', (cleanupOnDisconnect env session sh).matching.IsMember key mid p' := by
  rw [cleanupOnDisconnect_matching]
  by_cases hauth : session.authenticated = true
  · rw [if_pos hauth]
    rcases cleanupMatchingOnDisconnect_cases session.info env.matching.order
      ⟨sh.matching, session.matching⟩ with heq | ⟨m', left, hinit, hentered, hleave, heq⟩
    · rw [heq]
      exact ⟨p, hp⟩
    · -- one leaves, but from another room or under another npid
      rw [heq]
      refine leaveRoom_stays hall hleave hp ?_
      by_contra hboth
      push Not at hboth
      exact hfound ⟨hauth, hinit, hentered, hboth.1, hboth.2⟩
  · rw [if_neg hauth]
    exact ⟨p, hp⟩

/-! ## Runs -/

variable {w : WatchedServer} {e : Event}

/-- The members of every room are in order. -/
def RoomsOk (w : WatchedServer) : Prop := AllRooms MembersOk w.server.shared.matching

/-- Members stay in order. -/
theorem watch_roomsOk (h : RoomsOk w) (e : Event) : RoomsOk (watchServer sv w e) :=
  membersOk_rules.steps.step h (by unfold Event.Creates; split <;> trivial)

/-- A session that a command has changed is live if it was. -/
theorem live_set {server : Server} {r : CommandState} {session session' : ClientSession} {c' : ConnId}
    (hc : server.conns.get? c = some session) (hlive : server.live c' = some session') :
    ∃ session'', ({ server with
      db := r.db, shared := r.shared, conns := server.conns.set c r.session } : Server).live c' =
        some session'' := by
  obtain ⟨hnot, hc'⟩ := Server.live_eq_some.mp hlive
  by_cases heq : c' = c
  · subst heq
    exact ⟨r.session, Server.live_eq_some.mpr ⟨hnot, Table.get?_set_self⟩⟩
  · exact ⟨session', Server.live_eq_some.mpr ⟨hnot, (Table.get?_set_ne heq).trans hc'⟩⟩

/-- A clean exit leaves nobody behind. -/
theorem watch_live (hok : RoomsOk w) (hlive : MembersLive w) (hexit : CleanExit w e) :
    MembersLive (watchServer sv w e) := by
  cases e with
  | connect =>
    intro key mid p hp
    obtain ⟨c, session, hseat, hc⟩ := hlive key mid p hp
    obtain ⟨hnot, hc⟩ := Server.live_eq_some.mp hc
    refine ⟨c, ?_⟩
    by_cases hnew : c = w.server.nextConn
    · subst hnew
      exact ⟨{}, hseat, Server.live_eq_some.mpr ⟨hnot, Table.get?_set_self⟩⟩
    · exact ⟨session, hseat, Server.live_eq_some.mpr ⟨hnot, (Table.get?_set_ne hnew).trans hc⟩⟩
  | request c cmd env =>
    unfold watchServer Server.step
    cases hc : w.server.conns.get? c with
    | none =>
      simp only [hc]
      exact hlive
    | some session =>
      simp only [hc]
      intro key mid p hp
      by_cases hgone : c ∈ w.server.gone
      · -- nobody enters by the request, and who is there has a live connection
        obtain ⟨hnone, hseats⟩ := dispatch_noEntry sv c w.seats
          ⟨w.server.db, w.server.shared, session⟩ hok (hexit hgone session hc)
        obtain ⟨p0, hp0⟩ := hnone key mid p hp
        obtain ⟨c', session', hseat, hc'⟩ := hlive key mid p0 hp0
        obtain ⟨session'', hc''⟩ := live_set hc hc'
        exact ⟨c', session'', (congrFun₂ hseats key mid).trans hseat, hc''⟩
      · rcases dispatch_seats ⟨w.server.db, w.server.shared, session⟩ hok cmd key mid p hp with
          hmine | ⟨hsame, p0, hp0⟩
        · -- a member whom this request has put there
          obtain ⟨session', hc'⟩ := live_set hc (Server.live_eq_some.mpr ⟨hgone, hc⟩)
          exact ⟨c, session', hmine, hc'⟩
        · obtain ⟨c', session', hseat, hc'⟩ := hlive key mid p0 hp0
          obtain ⟨session'', hc''⟩ := live_set hc hc'
          exact ⟨c', session'', hsame.trans hseat, hc''⟩
  | disconnect c env =>
    unfold watchServer Server.step
    cases hc : w.server.live c with
    | none =>
      simp only [hc]
      exact hlive
    | some session =>
      simp only [hc]
      intro key mid p hp
      obtain ⟨p0, hp0⟩ := cleanup_noneEnters hok key mid p hp
      obtain ⟨c', session', hseat, hc'⟩ := hlive key mid p0 hp0
      obtain ⟨hnot, hc'⟩ := Server.live_eq_some.mp hc'
      -- the cleanup has found all members of the connection that goes
      have hne : c' ≠ c := by
        rintro rfl
        exact cleanup_gone hok hp0 (hexit session hc key mid p0 hp0 hseat) hp
      refine ⟨c', session', hseat, Server.live_eq_some.mpr ⟨?_, (Table.get?_set_ne hne).trans hc'⟩⟩
      simp [hne, hnot]

/-- After a disconnect that is not clean, some member has no live connection. -/
theorem watch_not_live (hok : RoomsOk w) (hexit : ¬ CleanExit w e) :
    ¬ MembersLive (watchServer sv w e) := by
  cases e with
  | connect => exact absurd trivial hexit
  | request c cmd env =>
    intro hlive
    refine hexit fun hgone session hc henters => ?_
    -- who enters has the seat of a connection that is gone
    obtain ⟨key, mid, p, hp, hseat⟩ := dispatch_enters sv c w.seats henters
    unfold watchServer Server.step at hlive
    simp only [hc] at hlive
    obtain ⟨c', session', hseat', hc'⟩ := hlive key mid p hp
    obtain rfl := Option.some.inj (hseat.symm.trans hseat')
    exact (Server.live_eq_some.mp hc').1 hgone
  | disconnect c env =>
    intro hlive
    refine hexit fun session hc key mid p hp hseat => ?_
    by_contra hfound
    -- a member that is not found stays, with the seat of a connection that is gone
    obtain ⟨p', hp'⟩ := cleanup_stays env hok hp hfound
    unfold watchServer Server.step at hlive
    simp only [hc] at hlive
    obtain ⟨c', session', hseat', hc'⟩ := hlive key mid p' hp'
    obtain rfl := Option.some.inj (hseat.symm.trans hseat')
    exact (Server.live_eq_some.mp hc').1 List.mem_cons_self

/-- **Members of live connections.** In every state of a run each member of a room was put there
by a connection that is still live if and only if every connection that goes has members only in
the room that its own state names, under its present npid, and is logged in and in a context, and
no request that is served after its connection's cleanup is a `CreateRoom`, or a `JoinRoom` to a
room that admits the user. -/
theorem members_live_iff (sv : Services) (db : Database) (events : List Event) :
    (∀ n, MembersLive (watchedServerAfter sv db events n)) ↔
      ∀ n (hn : n < events.length), CleanExit (watchedServerAfter sv db events n) events[n] := by
  refine runAt_iff_guard (I := RoomsOk) ?_ (fun w e h => watch_roomsOk h e) ?_
    (fun w e hok hlive hexit => watch_live hok hlive hexit)
    (fun w e hok _ hexit => watch_not_live hok hexit)
  · intro key room hroom
    cases hroom
  · rintro key mid p ⟨room, hroom, -⟩
    cases hroom

/-- Alice creates two rooms and goes. -/
theorem first_room_stays :
    ¬ ∀ sv db events n, MembersLive (watchedServerAfter sv db events n) := by
  intro h
  let events : List Event :=
    [.connect, .request 0 (.login (some ⟨"alice", "alice", "", "", "", false⟩)) .plain,
      .request 0 (.contextStart (some 1)) .plain,
      .request 0 (.createRoom (some { maxSlots := 4 })) .plain,
      .request 0 (.createRoom (some { maxSlots := 4 })) .plain, .disconnect 0 .plain]
  let w := watchedServerAfter .plain aliceAndBob events 6
  have hmember : ((w.server.shared.matching.rooms.get? ("", 1)).bind
      fun room => room.members.get? 17).isSome = true := by decide
  obtain ⟨p, hp⟩ := Option.isSome_iff_exists.mp hmember
  obtain ⟨room, hroom, hp⟩ := Option.bind_eq_some_iff.mp hp
  obtain ⟨c, session, hseat, hc⟩ := h .plain aliceAndBob events 6 ("", 1) 17 p ⟨room, hroom, hp⟩
  have hc0 : w.seats ("", 1) 17 = some 0 := by decide
  obtain rfl := Option.some.inj (hc0.symm.trans hseat)
  have hgone : (w.server.live 0).isNone = true := by decide
  rw [hc] at hgone
  cases hgone

end ShadNet
