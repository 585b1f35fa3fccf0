import ShadNet.Lib.Delivery
import ShadNet.Proof.Online
import ShadNet.Proof.RoomJoin
import ShadNet.Spec.RoomQuery

/-!
# Messages to members of a room

* `server_names`: no two npids lead to one user.
* `mem_targets`: a message goes to the members that are addressed.
* `message_ok_iff`: each of them gets it once, exactly when no id of another member is repeated in a
  multicast.
-/

namespace ShadNet

open Lib

variable {sv : Services} {env : Env} {c : ConnId} {cs : CommandState} {sh : SharedState}

/-! ## Names and users -/

/-- An npid leads to the account that was registered with it, while there is one, and to no user
that another npid leads to. -/
structure NamesOk (db : Database) (named : Table String ℤ) : Prop where
  ids : db.IdsOk
  given : ∀ npid userId, named.get? npid = some userId → userId ≤ db.lastId
  account : ∀ npid userId, named.get? npid = some userId → ∀ a ∈ db.accounts, a.userId = userId →
    a.username = npid
  inj : ∀ npid npid' userId, named.get? npid = some userId → named.get? npid' = some userId →
    npid = npid'

variable {db : Database} {named : Table String ℤ}

/-- A login adds a name of its account. -/
theorem NamesOk.login (h : NamesOk db named) {user : UserRecord} (huser : user ∈ db.accounts) :
    NamesOk db (named.set user.username user.userId) := by
  refine ⟨h.ids, fun npid userId hid => ?_, fun npid userId hid a ha heq => ?_,
    fun npid npid' userId hid hid' => ?_⟩
  · rcases Table.of_get?_set hid with ⟨-, rfl⟩ | ⟨-, hold⟩
    · exact h.ids.given user huser
    · exact h.given npid userId hold
  · rcases Table.of_get?_set hid with ⟨rfl, rfl⟩ | ⟨-, hold⟩
    · rw [h.ids.unique a ha user huser heq]
    · exact h.account npid userId hold a ha heq
  · -- who led to the account before has its name
    rcases Table.of_get?_set hid with ⟨rfl, rfl⟩ | ⟨hne, hold⟩ <;>
      rcases Table.of_get?_set hid' with ⟨rfl, heq⟩ | ⟨hne', hold'⟩
    · rfl
    · exact h.account npid' _ hold' user huser rfl
    · rw [heq] at hold
      exact (h.account npid _ hold user huser rfl).symm
    · exact h.inj npid npid' userId hold hold'

theorem NamesOk.logout (h : NamesOk db named) (npid : String) : NamesOk db (named.del npid) :=
  ⟨h.ids, fun n uid hid => h.given n uid (Table.of_get?_del hid).2,
    fun n uid hid => h.account n uid (Table.of_get?_del hid).2,
    fun n n' uid hid hid' => h.inj n n' uid (Table.of_get?_del hid).2 (Table.of_get?_del hid').2⟩

/-- A registration leaves the names right. -/
theorem NamesOk.create (h : NamesOk db named) (aenv : AccountEnv)
    (npid password avatarUrl email : String) :
    NamesOk (createAccount sv aenv db npid password avatarUrl email).1 named := by
  have hids := createAccount_ids h.ids sv aenv npid password avatarUrl email
  rcases createAccount_cases sv aenv db npid password avatarUrl email with
    heq | ⟨account, -, -, hid, -, heq⟩
  · rw [heq]
    exact h
  · rw [heq] at hids ⊢
    refine ⟨hids, fun npid userId hn => ?_, fun npid userId hn a ha hauid => ?_, h.inj⟩
    · have hle := h.given npid userId hn
      simp only [Nat.cast_add, Nat.cast_one]
      omega
    · rcases List.mem_append.mp ha with hold | hnew
      · exact h.account npid userId hn a hold hauid
      · -- the new id leads nowhere yet
        obtain rfl := List.mem_singleton.mp hnew
        have hle := h.given npid userId hn
        omega

/-- A deletion leaves the names right. -/
theorem NamesOk.delete (h : NamesOk db named) (userId : ℤ) : NamesOk (deleteUser db userId) named :=
  ⟨deleteUser_ids h.ids userId, h.given,
    fun npid uid hn a ha => h.account npid uid hn a (List.mem_of_mem_filter ha), h.inj⟩

theorem cmdLogin_names (h : NamesOk cs.db cs.shared.npidToUserId) (req : Option LoginRequest) :
    NamesOk (cmdLogin sv env c cs req).1.db (cmdLogin sv env c cs req).1.shared.npidToUserId := by
  cases req with
  | none => exact h
  | some req =>
    unfold cmdLogin
    by_cases hacc : ∃ user, Accepted sv cs req user
    · obtain ⟨user, hacc⟩ := hacc
      obtain ⟨huser, hname⟩ := checkUser_found hacc.check
      have hset := h.login huser
      rw [hname] at hset
      rw [hacc.loginCheck]
      exact hset
    · push Not at hacc
      obtain ⟨e, he⟩ := loginCheck_refused env hacc
      rw [he]
      exact h

theorem cmdCreate_names (h : NamesOk cs.db cs.shared.npidToUserId) (req : Option RegistrationRequest) :
    NamesOk (cmdCreate sv env cs req).1.db (cmdCreate sv env cs req).1.shared.npidToUserId := by
  rcases cmdCreate_cases sv env cs req with ⟨e, he⟩ | ⟨r, avatarUrl, e, -, -, he⟩
  · rw [he]
    exact h
  · rw [he]
    exact h.create env.account r.npid r.password avatarUrl r.email

theorem cmdDelete_names (h : NamesOk cs.db cs.shared.npidToUserId) (req : Option (String × String)) :
    NamesOk (cmdDelete sv env cs req).1.db (cmdDelete sv env cs req).1.shared.npidToUserId := by
  rcases cmdDelete_cases sv env cs req with
    ⟨e, he⟩ | ⟨npid, password, user, -, -, -, -, he⟩ | ⟨userId, -, he⟩
  · rw [he]
    exact h
  · rw [he]
    exact h.delete _
  · rw [he]
    exact h.delete _

/-- No command makes an npid lead to another account. -/
theorem dispatch_names (h : NamesOk cs.db cs.shared.npidToUserId) (cmd : Command) :
    NamesOk (dispatchCommand sv env c cs cmd).1.db
      (dispatchCommand sv env c cs cmd).1.shared.npidToUserId := by
  unfold dispatchCommand
  split
  · cases cmd with
    | login req => exact cmdLogin_names h req
    | create req => exact cmdCreate_names h req
    | delete req => exact cmdDelete_names h req
    | setAppearOffline req => cases req <;> exact h
    | contextStart ctxId => cases ctxId <;> exact h
    | contextStop decoded => cases decoded <;> exact h
    | score comId =>
      cases comId with
      | none => exact h
      | some comId =>
        simp only
        rw [(usageTouchGame_online cs.shared cs.session.info.userId comId).named]
        exact h
    | friend command npid =>
      -- the accounts stay as they are
      exact ⟨⟨h.ids.unique, h.ids.given⟩, h.given, h.account, h.inj⟩
    | _ => exact h
  · cases cmd with
    | login req => exact cmdLogin_names h req
    | create req => exact cmdCreate_names h req
    | _ => exact h

/-- Names stand for their accounts along every run. -/
theorem server_names (hdb : db.IdsOk) (titleGroups : Table String String) (events : List Event)
    (n : ℕ) : NamesOk (configuredServerAfter sv db titleGroups events n).db
      (configuredServerAfter sv db titleGroups events n).shared.npidToUserId := by
  refine runAt_inv (P := fun s : Server => NamesOk s.db s.shared.npidToUserId) ?_ ?_ events n
  · refine ⟨hdb, ?_, ?_, ?_⟩
    · intro npid userId hid
      cases hid
    · intro npid userId hid
      cases hid
    · intro npid npid' userId hid
      cases hid
  · intro s e h
    cases e with
    | connect => exact h
    | request c cmd env =>
      simp only [Server.step]
      cases hc : s.conns.get? c with
      | none => exact h
      | some session =>
        have hnames : NamesOk (CommandState.mk s.db s.shared session).db
          (CommandState.mk s.db s.shared session).shared.npidToUserId := h
        exact dispatch_names hnames cmd
    | disconnect c env =>
      simp only [Server.step]
      cases hc : s.live c with
      | none => exact h
      | some session =>
        simp only
        cases hauth : session.authenticated with
        | false =>
          unfold cleanupOnDisconnect
          rw [hauth]
          exact h
        | true =>
          rw [cleanup_named hauth]
          split
          · exact h.logout _
          · exact h

/-! ## Who is addressed -/

/-- The member is one that the message is for. -/
def Room.Addressed (room : Room) (npid : String) (castType : ℕ) (dstMemberIds : List ℕ)
    (m : RoomMember) : Prop :=
  room.members.get? m.memberId = some m ∧ m.npid ≠ npid ∧
    ((castType = matching2CasttypeUnicast ∧ ∃ id ∈ dstMemberIds.head?, id % 2 ^ 16 = m.memberId) ∨
      (castType = matching2CasttypeMulticast ∧ ∃ id ∈ dstMemberIds, id % 2 ^ 16 = m.memberId) ∨
      castType = matching2CasttypeBroadcast)

/-- The ids of other members among those that are named, as often as they are. -/
def Room.othersNamed (room : Room) (npid : String) (dstMemberIds : List ℕ) : List ℕ :=
  (dstMemberIds.map (· % 2 ^ 16)).filter fun mid =>
    (room.members.get? mid).any fun m => m.npid ≠ npid

variable {room : Room} {order : Order ℕ} {npid : String} {castType : ℕ} {ids : List ℕ}
  {targets : List RoomMember} {m : RoomMember}

/-- What is found under a list of ids. -/
theorem mem_byId (hok : MembersOk room) :
    m ∈ addTargets npid (ids.filterMap fun id => room.findById (id % 2 ^ 16)) ↔
      room.members.get? m.memberId = some m ∧ m.npid ≠ npid ∧
        ∃ id ∈ ids, id % 2 ^ 16 = m.memberId := by
  unfold addTargets Room.findById
  rw [List.mem_filter, List.mem_filterMap, decide_eq_true_iff]
  constructor
  · rintro ⟨⟨id, hid, hm⟩, hne⟩
    rw [hok.stored _ m hm]
    exact ⟨hm, hne, id, hid, rfl⟩
  · rintro ⟨hm, hne, id, hid, heq⟩
    exact ⟨⟨id, hid, by rw [heq]; exact hm⟩, hne⟩

theorem byId_ids (hok : MembersOk room) :
    (addTargets npid (ids.filterMap fun id => room.findById (id % 2 ^ 16))).map (·.memberId) =
      room.othersNamed npid ids := by
  have hmap : (ids.filterMap fun id => room.members.get? (id % 2 ^ 16)) =
      (ids.map (· % 2 ^ 16)).filterMap room.members.get? := by
    rw [List.filterMap_map]
    rfl
  unfold addTargets Room.findById Room.othersNamed
  rw [hmap]
  generalize ids.map (· % 2 ^ 16) = mids
  induction mids with
  | nil => rfl
  | cons mid mids ih =>
    rw [List.filter_cons]
    cases hm : room.members.get? mid with
    | none =>
      rw [List.filterMap_cons_none hm]
      exact ih
    | some m =>
      rw [List.filterMap_cons_some hm, List.filter_cons, Option.any_some]
      split
      · rw [List.map_cons, ih, hok.stored mid m hm]
      · exact ih

/-- How the members are found. -/
theorem targets_cases (h : room.targets order npid castType ids = .ok targets) :
    (castType = matching2CasttypeUnicast ∧ targets =
      addTargets npid ((ids.take 1).filterMap fun id => room.findById (id % 2 ^ 16))) ∨
    (castType = matching2CasttypeMulticast ∧ targets =
      addTargets npid (ids.filterMap fun id => room.findById (id % 2 ^ 16))) ∨
    (castType = matching2CasttypeBroadcast ∧ targets =
      addTargets npid ((room.members.inOrder order).map Prod.snd)) := by
  unfold Room.targets at h
  simp only at h
  split at h
  · rename_i huni
    split at h
    · cases h
    split at h
    · cases h
    exact Or.inl ⟨huni, (Except.ok.inj h).symm⟩
  split at h
  · rename_i hmulti
    split at h
    · cases h
    exact Or.inr (Or.inl ⟨hmulti, (Except.ok.inj h).symm⟩)
  split at h
  · rename_i hbroad
    exact Or.inr (Or.inr ⟨hbroad, (Except.ok.inj h).symm⟩)
  · cases h

/-- **A message goes to the members that are addressed.** -/
theorem mem_targets (hok : MembersOk room) (h : room.targets order npid castType ids = .ok targets) :
    m ∈ targets ↔ room.Addressed npid castType ids m := by
  unfold Room.Addressed
  rcases targets_cases h with ⟨rfl, rfl⟩ | ⟨rfl, rfl⟩ | ⟨rfl, rfl⟩
  · rw [mem_byId hok]
    cases ids <;> simp [matching2CasttypeUnicast, matching2CasttypeMulticast,
      matching2CasttypeBroadcast]
  · rw [mem_byId hok]
    simp [matching2CasttypeUnicast, matching2CasttypeMulticast, matching2CasttypeBroadcast]
  · unfold addTargets
    rw [List.mem_filter, List.mem_map, decide_eq_true_iff]
    constructor
    · rintro ⟨⟨⟨mid, m⟩, he, rfl⟩, hne⟩
      have hm := Table.mem_inOrder.mp he
      refine ⟨?_, hne, Or.inr (Or.inr rfl)⟩
      simp only
      rwa [hok.stored mid m hm]
    · rintro ⟨hm, hne, -⟩
      exact ⟨⟨(m.memberId, m), Table.mem_inOrder.mpr hm, rfl⟩, hne⟩

/-- Only a multicast may name a member twice. -/
theorem targets_nodup_iff (hok : MembersOk room)
    (h : room.targets order npid castType ids = .ok targets) : (targets.map (·.memberId)).Nodup ↔
      (castType = matching2CasttypeMulticast → (room.othersNamed npid ids).Nodup) := by
  rcases targets_cases h with ⟨rfl, rfl⟩ | ⟨rfl, rfl⟩ | ⟨rfl, rfl⟩
  · rw [byId_ids hok]
    refine iff_of_true ?_ nofun
    unfold Room.othersNamed
    refine List.Nodup.filter _ ?_
    cases ids with
    | nil => exact List.nodup_nil
    | cons id ids => exact List.nodup_singleton _
  · rw [byId_ids hok]
    simp
  · refine iff_of_true ?_ nofun
    -- the ids are the keys of the table
    unfold addTargets
    refine (List.filter_sublist.map _).nodup ?_
    rw [List.map_map]
    refine List.Nodup.map_on ?_ (Table.nodup_inOrder order room.members)
    rintro ⟨mid, m⟩ he ⟨mid', m'⟩ he' heq
    have hm := Table.mem_inOrder.mp he
    have hm' := Table.mem_inOrder.mp he'
    obtain rfl : mid = mid' := (hok.stored _ _ hm).symm.trans (heq.trans (hok.stored _ _ hm'))
    rw [Option.some.inj (hm.symm.trans hm')]

/-! ## Who gets the message -/

/-- The user that an npid leads to is online and has a matching context. -/
def SharedState.Reaches (sh : SharedState) (npid : String) (userId : ℤ) (client : ClientEntry) : Prop :=
  sh.npidToUserId.get? npid = some userId ∧ sh.clients.get? userId = some client ∧
    client.matchingContextId ≠ 0

/-- A message to someone who is reached is sent to his connection and context. -/
theorem SharedState.Reaches.send {userId : ℤ} {client : ClientEntry}
    (h : sh.Reaches npid userId client) (n : NotifyRoomMessage) :
    sendMatchingNotification sh n npid =
      some ⟨userId, client.send, client.matchingContextId, n⟩ := by
  obtain ⟨hid, hclient, hctx⟩ := h
  simp only [sendMatchingNotification, hid, hclient, hctx, ne_eq, not_false_eq_true, if_true]

theorem sendMatchingNotification_some {n : NotifyRoomMessage} {d : SentRoomMessage} :
    sendMatchingNotification sh n npid = some d ↔ ∃ client, sh.Reaches npid d.userId client ∧
      d = ⟨d.userId, client.send, client.matchingContextId, n⟩ := by
  unfold sendMatchingNotification SharedState.Reaches
  constructor
  · intro h
    split at h
    · cases h
    rename_i userId hid
    split at h
    · cases h
    rename_i client hclient
    split at h
    · rename_i hctx
      obtain rfl := Option.some.inj h
      exact ⟨client, ⟨hid, hclient, hctx⟩, rfl⟩
    · cases h
  · rintro ⟨client, hreach, heq⟩
    rw [heq]
    exact SharedState.Reaches.send hreach n

/-- **What becomes of a message** to the members that are addressed: they are listed, each once, those
of them who can be reached get it once, and nobody else does. -/
structure MessageOk (sh : SharedState) (addressed : RoomMember → Prop) (n : NotifyRoomMessage)
    (sent : List SentRoomMessage) : Prop where
  listed : ∀ mid, mid ∈ n.dstMemberIds ↔ ∃ m, addressed m ∧ m.memberId = mid
  once : n.dstMemberIds.Nodup
  received : ∀ m userId client, addressed m → sh.Reaches m.npid userId client →
    sent.filter (fun d => d.userId = userId) = [⟨userId, client.send, client.matchingContextId, n⟩]
  nobodyElse : ∀ d ∈ sent, ∃ m client, addressed m ∧ sh.Reaches m.npid d.userId client

/-- A message goes right if and only if it is no multicast that names somebody twice. -/
theorem messageOk_iff (hok : MembersOk room) (hnames : NamesOk db sh.npidToUserId)
    (h : room.targets order npid castType ids = .ok targets) {n : NotifyRoomMessage}
    (hdst : n.dstMemberIds = targets.map (·.memberId)) :
    MessageOk sh (room.Addressed npid castType ids) n (sendRoomMessages sh n (targets.map (·.npid))) ↔
      (castType = matching2CasttypeMulticast → (room.othersNamed npid ids).Nodup) := by
  have hmem : ∀ m, m ∈ targets ↔ room.Addressed npid castType ids m := fun m => mem_targets hok h
  rw [← targets_nodup_iff hok h]
  constructor
  · intro hmessage
    rw [← hdst]
    exact hmessage.once
  · intro hnodup
    -- members that are different have different npids
    have hnpids : (targets.map (·.npid)).Nodup := by
      refine List.Nodup.map_on ?_ (List.Nodup.of_map _ hnodup)
      intro m hm m' hm' heq
      have hget := ((hmem m).mp hm).1
      have hget' := ((hmem m').mp hm').1
      rw [hok.npids _ m _ m' hget hget' heq] at hget
      exact Option.some.inj (hget.symm.trans hget')
    refine ⟨fun mid => ?_, hdst ▸ hnodup, fun m userId client hm hreach => ?_, fun d hd => ?_⟩
    · rw [hdst, List.mem_map]
      constructor
      · rintro ⟨m, hm, rfl⟩
        exact ⟨m, (hmem m).mp hm, rfl⟩
      · rintro ⟨m, hm, rfl⟩
        exact ⟨m, (hmem m).mpr hm, rfl⟩
    · -- no other npid leads to the same user
      have honly : ∀ y ∈ targets.map (·.npid), ∀ d, sendMatchingNotification sh n y = some d →
          d.userId = userId → y = m.npid := by
        intro y _ d hd heq
        obtain ⟨client', hreach', -⟩ := sendMatchingNotification_some.mp hd
        rw [heq] at hreach'
        exact hnames.inj y m.npid userId hreach'.1 hreach.1
      exact sent_once hnpids (List.mem_map_of_mem ((hmem m).mpr hm)) (hreach.send n) honly
    · obtain ⟨y, hy, hsend⟩ := List.mem_filterMap.mp hd
      obtain ⟨m, hm, rfl⟩ := List.mem_map.mp hy
      obtain ⟨client, hreach, -⟩ := sendMatchingNotification_some.mp hsend
      exact ⟨m, client, (hmem m).mp hm, hreach⟩

/-- What a message that is sent consists of. -/
theorem cmdSendRoomMessage_ok {info : ClientInfo} {s : MatchingState} {req : SendRoomMessageRequest}
    {n : NotifyRoomMessage} {npids : List String}
    (h : cmdSendRoomMessage info order s (some req) = .ok (n, npids)) :
    ∃ room targets, s.shared.rooms.get? (s.own.matchingKey, req.roomId) = some room ∧
      room.targets order info.npid (req.castType % 2 ^ 8) req.dstMemberIds = .ok targets ∧
      n.dstMemberIds = targets.map (·.memberId) ∧ npids = targets.map (·.npid) := by
  unfold cmdSendRoomMessage at h
  simp only at h
  split at h
  · cases h
  rename_i room hroom
  split at h
  · cases h
  split at h
  · cases h
  rename_i targets htargets
  obtain ⟨rfl, rfl⟩ := Prod.mk.inj (Except.ok.inj h)
  exact ⟨room, targets, hroom, htargets, rfl, rfl⟩

/-- **Messages arrive once**: in every reachable state, a message that is accepted is listed for and
gets to the members that it is addressed to, each once, if and only if it is no multicast that names
another member twice. -/
theorem message_ok_iff (sv : Services) {db : Database} (hdb : db.IdsOk)
    (titleGroups : Table String String) (events : List Event) (k : ℕ) (info : ClientInfo)
    (order : Order ℕ) (own : MatchingSessionState) (req : SendRoomMessageRequest)
    (n : NotifyRoomMessage) (npids : List String)
    (h : cmdSendRoomMessage info order
      ⟨(configuredServerAfter sv db titleGroups events k).shared.matching, own⟩ (some req) =
        .ok (n, npids)) :
    let sh := (configuredServerAfter sv db titleGroups events k).shared
    ∃ room, sh.matching.rooms.get? (own.matchingKey, req.roomId) = some room ∧
      (MessageOk sh (room.Addressed info.npid (req.castType % 2 ^ 8) req.dstMemberIds) n
          (sendRoomMessages sh n npids) ↔
        (req.castType % 2 ^ 8 = matching2CasttypeMulticast →
          (room.othersNamed info.npid req.dstMemberIds).Nodup)) := by
  intro sh
  obtain ⟨room, targets, hroom, htargets, hdst, rfl⟩ := cmdSendRoomMessage_ok h
  exact ⟨room, hroom, messageOk_iff (server_membersOk k _ room hroom)
    (server_names hdb titleGroups events k) htargets hdst⟩

/-- Alice and Bob start their contexts, and Bob joins Alice's room under the id 34. -/
def bobIsReached : List Event :=
  [.connect, .request 0 (.login (some ⟨"alice", "alice", "", "", "", false⟩)) .plain,
    .request 0 (.contextStart (some 1)) .plain, .connect,
    .request 1 (.login (some ⟨"bob", "bob", "", "", "", false⟩)) .plain,
    .request 1 (.contextStart (some 2)) .plain,
    .request 0 (.createRoom (some { maxSlots := 4 })) .plain,
    .request 1 (.joinRoom (some { roomId := 1 })) .plain]

theorem message_to_bob (ids mids : List ℕ) (hids : (cmdSendRoomMessage
      { userId := 1, npid := "alice" } .listed
      ⟨(configuredServerAfter .plain aliceAndBob ∅ bobIsReached 8).shared.matching, {}⟩
      (some ⟨1, 3, ids, []⟩)).toOption.map (fun r => r.1.dstMemberIds) = some mids) :
    ∃ n npids, cmdSendRoomMessage { userId := 1, npid := "alice" } .listed
      ⟨(configuredServerAfter .plain aliceAndBob ∅ bobIsReached 8).shared.matching, {}⟩
      (some ⟨1, 3, ids, []⟩) = .ok (n, npids) ∧ n.dstMemberIds = mids := by
  generalize cmdSendRoomMessage _ _ _ _ = r at *
  cases r with
  | error e => cases hids
  | ok r => exact ⟨r.1, r.2, rfl, Option.some.inj hids⟩

/-- Alice sends a multicast to Bob. -/
theorem bob_is_told_once :
    let sh := (configuredServerAfter .plain aliceAndBob ∅ bobIsReached 8).shared
    ∃ n npids room, cmdSendRoomMessage { userId := 1, npid := "alice" } .listed ⟨sh.matching, {}⟩
        (some ⟨1, 3, [34], []⟩) = .ok (n, npids) ∧ sh.matching.rooms.get? ("", 1) = some room ∧
      MessageOk sh (room.Addressed "alice" 3 [34]) n (sendRoomMessages sh n npids) := by
  intro sh
  obtain ⟨n, npids, hok, -⟩ := message_to_bob [34] [34] (by decide +kernel)
  obtain ⟨room, hroom, hiff⟩ :=
    message_ok_iff .plain aliceAndBob_ids ∅ bobIsReached 8 _ .listed {} _ n npids hok
  refine ⟨n, npids, room, hok, hroom, hiff.mpr fun _ => ?_⟩
  exact List.Nodup.filter _ (List.nodup_singleton _)

/-- A multicast that names Bob twice. -/
theorem bob_is_told_twice :
    ¬ ∀ (sv : Services) (db : Database), db.IdsOk → ∀ titleGroups events k info order own req n npids,
      let sh := (configuredServerAfter sv db titleGroups events k).shared
      cmdSendRoomMessage info order ⟨sh.matching, own⟩ (some req) = .ok (n, npids) →
      ∃ room, sh.matching.rooms.get? (own.matchingKey, req.roomId) = some room ∧
        MessageOk sh (room.Addressed info.npid (req.castType % 2 ^ 8) req.dstMemberIds) n
          (sendRoomMessages sh n npids) := by
  intro h
  obtain ⟨n, npids, hok, hdst⟩ :=
    message_to_bob [34, 34] [34, 34] (by decide +kernel)
  obtain ⟨room, -, hmessage⟩ := h .plain aliceAndBob aliceAndBob_ids ∅ bobIsReached 8 _ _ _ _ n npids hok
  have honce := hmessage.once
  rw [hdst] at honce
  exact absurd honce (by decide)

end ShadNet
