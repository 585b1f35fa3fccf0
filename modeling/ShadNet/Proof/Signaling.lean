import ShadNet.Lib.Latest
import ShadNet.Proof.RoomLists
import ShadNet.Proof.ShadNetServer
import ShadNet.Proof.Stun

/-!
# Where users are told to be

A user is told where another can be reached, so that the two can play with each other.

* `udpExt_latest`: where a user was seen is where his last ping came from.
* `member_signaled`: a member of a room has the address of a connection that he was logged in on.
* `signaling_told`: so others are told where his last ping came from, or where he is connected from.
-/

namespace ShadNet

open Lib

variable {setup : NetworkSetup} {start : ServerStart} {events : List NetworkEvent} {n : ℕ}
  {w : ShadNetServer} {s : Server} {npid : String} {key : RoomKey} {room : Room} {mid : ℕ}
  {m : RoomMember}

/-! ## Pings -/

/-- Where a ping of the user comes from. -/
def NetworkEvent.pingFrom (qt : Qt) (npid : String) : NetworkEvent → Option (String × ℕ)
  | .datagram raw sender senderPort =>
    if pingOf qt raw = some npid then some (extIp sender, senderPort.toNat) else none
  | _ => none

theorem runScoreCommand_udpExt (st : ServerSetup) (env : DispatchEnv) (s : DispatchState)
    (payload : List UInt8) (cmd : CommandType) :
    (runScoreCommand st env s payload cmd).1.udpExt = s.udpExt := by
  unfold runScoreCommand DispatchState.onQuery
  cases cmd <;> simp only <;> split <;> rfl

theorem runQuery_udpExt (st : ServerSetup) (env : DispatchEnv) (s : DispatchState)
    (payload : List UInt8) (cmd : CommandType) :
    (runQuery st env s payload cmd).1.udpExt = s.udpExt := by
  unfold runQuery DispatchState.onQuery
  cases cmd <;> simp only <;> split <;> rfl

theorem runCommand_udpExt (st : ServerSetup) (env : DispatchEnv) (c : ConnId) (s : DispatchState)
    (payload : List UInt8) (cmd : CommandType) :
    (runCommand st env c s payload cmd).1.udpExt = s.udpExt := by
  unfold runCommand
  split
  · exact runScoreCommand_udpExt st env s payload cmd
  · split
    · rfl
    · exact runQuery_udpExt st env s payload cmd

/-- Packets leave alone what pings tell. -/
theorem dispatchPacket_udpExt (st : ServerSetup) (env : DispatchEnv) (c : ConnId) (s : DispatchState)
    (p : Packet) : (dispatchPacket st env c s p).1.udpExt = s.udpExt := by
  have hnoted : ∀ cmd, (noted env s p.payload cmd).udpExt = s.udpExt := by
    intro cmd
    unfold noted
    split
    · split <;> rfl
    · rfl
  rcases dispatchPacket_cases st env c s p with
    ⟨cmd, -, -, -, heq⟩ | ⟨cmd, -, -, -, heq⟩ | ⟨e, -, heq, -⟩
  · rw [heq, runCommand_udpExt, hnoted]
  · rw [heq, runCommand_udpExt]
  · rw [heq]

/-- An event changes the place of a user if it is his ping. -/
theorem step_udpExt (setup : NetworkSetup) (npid : String) (w : ShadNetServer) (e : NetworkEvent) :
    (w.step setup e).udpExt.get? npid = (e.pingFrom setup.qt npid).or (w.udpExt.get? npid) := by
  cases e with
  | datagram raw sender senderPort =>
    simp only [ShadNetServer.step, NetworkEvent.pingFrom]
    rw [onDatagram_eq]
    cases hping : pingOf setup.qt raw with
    | none => simp
    | some npid' =>
      simp only [Option.some.injEq, Option.elim_some]
      rw [Table.get?_set]
      by_cases hsame : npid' = npid
      · rw [if_pos hsame.symm, if_pos hsame, Option.some_or]
      · rw [if_neg (Ne.symm hsame), if_neg hsame, Option.none_or]
  | process c env =>
    simp only [ShadNetServer.step, NetworkEvent.pingFrom, Option.none_or]
    cases hc : w.conns.get? c with
    | none => rfl
    | some conn =>
      simp only
      cases iteration conn.readBuf with
      | exit e =>
        simp only
        split <;> rfl
      | packet p readBuf =>
        exact congrArg (·.get? npid) (dispatchPacket_udpExt setup.toServerSetup _ c _ p)
  | disconnect c env =>
    simp only [ShadNetServer.step, NetworkEvent.pingFrom, Option.none_or]
    split
    · rfl
    · split <;> rfl
  | connect peerAddress => rfl
  | receive c chunk => rfl

/-- **The place of a user** is where his last ping came from. -/
theorem udpExt_latest (setup : NetworkSetup) (start : ServerStart) (events : List NetworkEvent) (n : ℕ)
    (npid : String) : (networkAfter setup start events n).udpExt.get? npid =
      latest (NetworkEvent.pingFrom setup.qt npid) events n := by
  unfold networkAfter
  rw [runAt_latest (g := fun w : ShadNetServer => w.udpExt.get? npid) (step_udpExt setup npid)]
  exact Option.or_none

/-! ## Members -/

/-- Somebody is logged in as the npid on a connection from there. -/
def ShadNetServer.LoggedInFrom (w : ShadNetServer) (npid peerAddress : String) : Prop :=
  ∃ c conn, w.conns.get? c = some conn ∧ conn.session.authenticated = true ∧
    conn.session.info.npid = npid ∧ conn.peerAddress = peerAddress

/-- The address that a member is given. -/
def ShadNetServer.Signaled (w : ShadNetServer) (npid addr : String) (port : ℕ) : Prop :=
  ∃ peerAddress, w.LoggedInFrom npid peerAddress ∧
    getSelfSignalingAddr w.udpExt npid peerAddress = (addr, port)

/-- Who has never pinged is signaled by the address of a connection, with port 0. -/
theorem ShadNetServer.Signaled.of_unseen {addr : String} {port : ℕ} (h : w.Signaled npid addr port)
    (hunseen : w.udpExt.get? npid = none) : w.LoggedInFrom npid addr ∧ port = 0 := by
  obtain ⟨peerAddress, hlogged, hplace⟩ := h
  unfold getSelfSignalingAddr at hplace
  rw [hunseen] at hplace
  obtain ⟨rfl, rfl⟩ := Prod.mk.inj hplace
  exact ⟨hlogged, rfl⟩

/-- The npid, the address and the port of a member. -/
def RoomMember.place (m : RoomMember) : String × String × ℕ := (m.npid, m.addr, m.port)

theorem RoomMember.Kept.place {p p' : RoomMember} (h : p.Kept p') : p'.place = p.place := by
  rcases h with rfl | rfl <;> rfl

/-- Someone in some room is at the place. -/
def MatchingSharedState.HasPlace (ms : MatchingSharedState) (place : String × String × ℕ) : Prop :=
  ∃ key room mid m, ms.rooms.get? key = some room ∧ room.members.get? mid = some m ∧ m.place = place

/-- A command that lets its caller into a room, and tells where he is. -/
theorem roomOp_enters {e : Event} {op : RoomOp} {info : ClientInfo} {env : MatchingEnv}
    (hop : s.roomOp e = some (key, op))
    (h : (∃ req, op = .join info env req) ∨ ∃ own req, op = .create info env own req) :
    ∃ c session cmd senv, e = .request c cmd senv ∧ s.conns.get? c = some session ∧
      session.authenticated = true ∧ session.info = info ∧ senv.matching = env := by
  cases e with
  | connect => cases hop
  | request c cmd senv =>
    obtain ⟨session, hc, hop⟩ := Option.bind_eq_some_iff.mp hop
    split at hop
    · rename_i hauth
      refine ⟨c, session, cmd, senv, rfl, hc, hauth, ?_⟩
      unfold ClientSession.roomOp at hop
      rcases h with ⟨req, rfl⟩ | ⟨own, req, rfl⟩
      · split at hop <;> cases hop
        exact ⟨rfl, rfl⟩
      · split at hop <;> cases hop
        exact ⟨rfl, rfl⟩
    · cases hop
  | disconnect c senv =>
    obtain ⟨session, -, hop⟩ := Option.bind_eq_some_iff.mp hop
    split at hop
    · cases hop
      rcases h with ⟨req, h⟩ | ⟨own, req, h⟩ <;> cases h
    · cases hop

/-- **Where a member comes from**: his place was taken before, or the caller of the command is there. -/
theorem step_place {sv : Services} {e : Event} (hok : AllRooms MembersOk s.shared.matching)
    (hroom : (s.step sv e).shared.matching.rooms.get? key = some room)
    (hm : room.members.get? mid = some m) :
    s.shared.matching.HasPlace m.place ∨
    ∃ c session cmd env, e = .request c cmd env ∧ s.conns.get? c = some session ∧
      session.authenticated = true ∧
      m.place = (session.info.npid, env.matching.addr, env.matching.port) := by
  rcases step_room_cases hroom with
    ⟨old, hold, rfl | ⟨op, hop, hstep⟩⟩ | ⟨info, env, own, req, hop, rfl⟩
  · exact Or.inl ⟨key, room, mid, m, hold, hm, rfl⟩
  · rcases hstep.member (hok key old hold) hm with ⟨m', hm', hkept⟩ | ⟨info, env, req, rfl, -, rfl⟩
    · exact Or.inl ⟨key, old, mid, m', hold, hm', hkept.place.symm⟩
    · obtain ⟨c, session, cmd, senv, he, hc, hauth, rfl, rfl⟩ := roomOp_enters hop (Or.inl ⟨req, rfl⟩)
      exact Or.inr ⟨c, session, cmd, senv, he, hc, hauth, rfl⟩
  · obtain ⟨c, session, cmd, senv, he, hc, hauth, rfl, rfl⟩ :=
      roomOp_enters hop (Or.inr ⟨own, req, rfl⟩)
    rw [createdRoom_ok.get?] at hm
    split at hm
    · obtain rfl := Option.some.inj hm
      exact Or.inr ⟨c, session, cmd, senv, he, hc, hauth, rfl⟩
    · cases hm

/-- After a step on the network, whoever has come into a room has the address of his connection, or
is where his pings come from. -/
theorem step_signaled (hs : Simulates w s) (hok : AllRooms MembersOk s.shared.matching)
    {e : NetworkEvent} (hroom : (w.step setup e).shared.matching.rooms.get? key = some room)
    (hm : room.members.get? mid = some m) :
    w.shared.matching.HasPlace m.place ∨ w.Signaled m.npid m.addr m.port := by
  have hafter := step_simulates setup w s e hs
  rw [← hs.shared]
  rw [← hafter.shared] at hroom
  cases e with
  | connect peerAddress =>
    simp only [ShadNetServer.commands, List.foldl_cons, List.foldl_nil] at hroom
    rcases step_place hok hroom hm with hplace | ⟨c, session, cmd, env, he, -⟩
    · exact Or.inl hplace
    · cases he
  | receive c chunk => exact Or.inl ⟨key, room, mid, m, hroom, hm, rfl⟩
  | datagram raw sender senderPort => exact Or.inl ⟨key, room, mid, m, hroom, hm, rfl⟩
  | disconnect c env =>
    simp only [ShadNetServer.commands, List.foldl_cons, List.foldl_nil] at hroom
    rcases step_place hok hroom hm with hplace | ⟨c, session, cmd, env, he, -⟩
    · exact Or.inl hplace
    · cases he
  | process c env =>
    simp only [ShadNetServer.commands] at hroom
    cases hc : w.conns.get? c with
    | none =>
      rw [hc] at hroom
      exact Or.inl ⟨key, room, mid, m, hroom, hm, rfl⟩
    | some conn =>
      simp only [hc] at hroom
      cases hiter : iteration conn.readBuf with
      | exit e =>
        rw [hiter] at hroom
        exact Or.inl ⟨key, room, mid, m, hroom, hm, rfl⟩
      | packet p readBuf =>
        simp only [hiter, List.foldl_cons, List.foldl_nil] at hroom
        rcases step_place hok hroom hm with hplace | ⟨c', session, cmd, env', he, hc', hauth, hplace⟩
        · exact Or.inl hplace
        · cases he
          rw [hs.conns c, hc] at hc'
          obtain rfl := Option.some.inj hc'
          obtain ⟨hnpid, haddr⟩ := Prod.mk.inj hplace
          refine Or.inr ⟨conn.peerAddress, ⟨c, conn, hc, hauth, hnpid.symm, rfl⟩, ?_⟩
          rw [hnpid]
          exact haddr.symm

/-- **A member's address** was that of a user logged in under his npid, at some time before. -/
theorem member_signaled (setup : NetworkSetup) (start : ServerStart) (events : List NetworkEvent)
    (n : ℕ) : ∀ place, (networkAfter setup start events n).shared.matching.HasPlace place →
      ∃ k < n, (networkAfter setup start events k).Signaled place.1 place.2.1 place.2.2 := by
  induction n with
  | zero =>
    rintro place ⟨key, room, mid, m, hroom, -⟩
    unfold networkAfter at hroom
    rw [runAt_zero] at hroom
    cases hroom
  | succ n ih =>
    by_cases hn : n < events.length
    · rintro place ⟨key, room, mid, m, hroom, hm, rfl⟩
      rw [networkAfter, runAt_succ _ hn] at hroom
      rcases step_signaled (network_simulates setup start events n) (server_membersOk _) hroom hm with
        hplace | hsignaled
      · obtain ⟨k, hk, hsignaled⟩ := ih _ hplace
        exact ⟨k, by omega, hsignaled⟩
      · exact ⟨n, n.lt_succ_self, hsignaled⟩
    · -- the run is over
      have hover : networkAfter setup start events (n + 1) = networkAfter setup start events n :=
        runAt_over _ (by omega)
      rw [hover]
      intro place hplace
      obtain ⟨k, hk, hsignaled⟩ := ih place hplace
      exact ⟨k, by omega, hsignaled⟩

/-! ## What others are told -/

/-- A ping comes from somewhere. -/
theorem pingFrom_ne {qt : Qt} {place : String × ℕ}
    (h : latest (NetworkEvent.pingFrom qt npid) events n = some place) : place.1 ≠ "" := by
  obtain ⟨k, hk, -, hping, -⟩ := latest_eq_some_iff.mp h
  unfold NetworkEvent.pingFrom at hping
  split at hping
  · split at hping
    · rw [← Option.some.inj hping]
      exact extIp_ne _
    · cases hping
  · cases hping

/-- The member that is asked for. -/
def signalingMember (roomOrder : Order RoomKey) (order : Order ℕ) (s : MatchingState) (target : String) :
    Option RoomMember :=
  (s.shared.rooms.inOrder roomOrder).findSome? fun e =>
    if e.1.1 ≠ s.own.matchingKey then none else e.2.findByNpid order target

theorem signalingMember_some {roomOrder : Order RoomKey} {order : Order ℕ} {s : MatchingState}
    {target : String} (hok : AllRooms MembersOk s.shared)
    (h : signalingMember roomOrder order s target = some m) :
    ∃ roomId room, s.shared.rooms.get? (s.own.matchingKey, roomId) = some room ∧
      room.members.get? m.memberId = some m ∧ m.npid = target := by
  obtain ⟨⟨⟨matchingKey, roomId⟩, room⟩, he, hfound⟩ := List.exists_of_findSome?_eq_some h
  have hroom := Table.mem_inOrder.mp he
  split at hfound
  · cases hfound
  · rename_i hkey
    obtain rfl := not_not.mp hkey
    obtain ⟨hm, hnpid⟩ := (hok _ room hroom).found hfound
    exact ⟨roomId, room, hroom, hm, hnpid⟩

/-- **The answer** is the place of the last ping, or else that of the member. -/
theorem cmdRequestSignalingInfos_eq (roomOrder : Order RoomKey) (order : Order ℕ) (s : MatchingState)
    (udpExt : UdpExt) (target : String) (hudp : ∀ place, udpExt.get? target = some place → place.1 ≠ "") :
    cmdRequestSignalingInfos roomOrder order s udpExt (some target) =
      let tm := signalingMember roomOrder order s target
      let place := (udpExt.get? target).getD ((tm.map fun m => (m.addr, m.port)).getD ("", 0))
      if place.1 = "" then .error .notFound
      else .ok ⟨target, place.1, place.2, (tm.map (·.memberId)).getD 0⟩ := by
  unfold cmdRequestSignalingInfos signalingMember
  simp only
  cases hplace : udpExt.get? target with
  | none => simp only [Option.getD_none, if_true]
  | some place =>
    simp only [Option.getD_some, if_neg (hudp place hplace)]

/-- **Where the target is told to be.** If he was ever pinged for, then where his last ping came from,
whether he is in a room or not. If not, then he is told to be where he was once connected from, without
a port. The member id is that of a member of his name, in a room of the caller's game. -/
theorem signaling_told (setup : NetworkSetup) (start : ServerStart) (events : List NetworkEvent) (n : ℕ) :
    let w := networkAfter setup start events n
    ∀ c conn, w.conns.get? c = some conn → ∀ roomOrder order target,
      let answer := cmdRequestSignalingInfos roomOrder order (w.dispatchState conn).matchingState w.udpExt
        (some target)
      let seen := latest (NetworkEvent.pingFrom setup.qt target) events n
      (∀ place, seen = some place → ∃ memberId, answer = .ok ⟨target, place.1, place.2, memberId⟩) ∧
      (∀ reply, answer = .ok reply → reply.targetNpid = target ∧
        (seen = none → reply.targetPort = 0 ∧
          ∃ k < n, (networkAfter setup start events k).LoggedInFrom target reply.targetIp) ∧
        (reply.targetMemberId ≠ 0 → ∃ roomId room m,
          w.shared.matching.rooms.get? (conn.session.matching.matchingKey, roomId) = some room ∧
          room.members.get? reply.targetMemberId = some m ∧ m.npid = target)) := by
  intro w c conn hc roomOrder order target answer seen
  have hseen : w.udpExt.get? target = seen := udpExt_latest setup start events n target
  have hok : AllRooms MembersOk w.shared.matching := by
    rw [← (network_simulates setup start events n).shared]
    exact server_membersOk _
  have hne : ∀ place, w.udpExt.get? target = some place → place.1 ≠ "" := by
    intro place hplace
    exact pingFrom_ne (hseen.symm.trans hplace)
  have hanswer : answer = _ := cmdRequestSignalingInfos_eq roomOrder order
    (w.dispatchState conn).matchingState w.udpExt target hne
  simp only [hseen] at hanswer
  have hmember : ∀ m, signalingMember roomOrder order (w.dispatchState conn).matchingState target = some m →
      ∃ roomId room,
        w.shared.matching.rooms.get? (conn.session.matching.matchingKey, roomId) = some room ∧
        room.members.get? m.memberId = some m ∧ m.npid = target := by
    intro m
    exact signalingMember_some hok
  generalize signalingMember roomOrder order (w.dispatchState conn).matchingState target = tm
    at hanswer hmember
  refine ⟨fun place hplace => ?_, fun reply hreply => ?_⟩
  · refine ⟨(tm.map (·.memberId)).getD 0, hanswer.trans ?_⟩
    rw [hplace, Option.getD_some, if_neg (hne place (hseen.trans hplace))]
  · rw [hanswer] at hreply
    split at hreply
    · cases hreply
    · rename_i hfound
      obtain rfl := Except.ok.inj hreply
      refine ⟨rfl, fun hnone => ?_, fun hid => ?_⟩
      · rw [hnone, Option.getD_none] at hfound
        rw [hnone, Option.getD_none]
        cases tm with
        | none => exact absurd rfl hfound
        | some m =>
          obtain ⟨roomId, room, hroom, hm, rfl⟩ := hmember m rfl
          obtain ⟨k, hk, hsignaled⟩ :=
            member_signaled setup start events n m.place ⟨_, room, _, m, hroom, hm, rfl⟩
          have hunseen := udpExt_latest setup start events k m.npid
          rw [latest_eq_none_of_le hk.le hnone] at hunseen
          obtain ⟨hlogged, hport⟩ := hsignaled.of_unseen hunseen
          exact ⟨hport, k, hk, hlogged⟩
      · cases tm with
        | none => exact absurd rfl hid
        | some m =>
          obtain ⟨roomId, room, hroom, hm, hnpid⟩ := hmember m rfl
          exact ⟨roomId, room, m, hroom, hm, hnpid⟩

/-- Alice pings from behind her router. -/
def alicePings : List NetworkEvent :=
  [.connect "10.0.0.2", .datagram (frameSignaling
    (0x01 :: toUtf8 "alice" ++ List.replicate 11 0 ++ [192, 168, 0, 7])) (.ipv4Mapped 0x0A000001) 3658]

/-- A member who asks is told the router's address of one who has pinged. -/
theorem signaling_told_ping : ∃ conn memberId,
    (networkAfter .plain .plain alicePings 2).conns.get? 0 = some conn ∧
      cmdRequestSignalingInfos .listed .listed
        ((networkAfter .plain .plain alicePings 2).dispatchState conn).matchingState
        (networkAfter .plain .plain alicePings 2).udpExt (some "alice") =
      .ok ⟨"alice", "10.0.0.1", 3658, memberId⟩ := by
  have hconn : ((networkAfter .plain .plain alicePings 2).conns.get? 0).isSome := by decide +kernel
  obtain ⟨conn, hconn⟩ := Option.isSome_iff_exists.mp hconn
  have hseen : latest (NetworkEvent.pingFrom Qt.ascii "alice") alicePings 2 =
      some ("10.0.0.1", 3658) := by decide +kernel
  obtain ⟨memberId, hanswer⟩ :=
    (signaling_told .plain .plain alicePings 2 0 conn hconn .listed .listed "alice").1 _ hseen
  exact ⟨conn, memberId, hconn, hanswer⟩

end ShadNet
