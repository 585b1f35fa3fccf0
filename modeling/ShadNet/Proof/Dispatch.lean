import ShadNet.Proof.Matching
import ShadNet.Spec.Dispatch

/-!
# What a malformed packet leaves behind

Every handler decodes its request before it does anything, so that a request that does not decode
leaves the state as it was. The dispatcher itself has by then noted the game of a score command.

* `dispatchCommand_spares`, `runCommand_spares`: the handlers.
* `noteGame_noted`: what the dispatcher notes.
* `malformed_leaves`: after a malformed packet there is this note, or nothing.
* `dispatchPacket_state`: packets as the commands of `Server.step`.
-/

namespace ShadNet

open Lib

/-- A request that does not decode leaves everything as it is. -/
structure Spares {σ β : Type} (s : σ) (r : σ × ErrorType × β) : Prop where
  state : r.2.1 = .malformed → r.1 = s

section Spares

variable {σ β : Type} {s : σ}

theorem Spares.refuse (e : ErrorType) (b : β) : Spares s (s, e, b) := ⟨fun _ => rfl⟩

/-- What is not refused as malformed may do anything. -/
theorem Spares.of_ne {r : σ × ErrorType × β} (h : r.2.1 ≠ .malformed) : Spares s r :=
  ⟨fun hm => absurd hm h⟩

end Spares

variable {sv : Services} {st : ServerSetup} {c : ConnId}

/-! ## Accounts and friends -/

section CommandState

variable (env : Env) (cs : CommandState)

theorem cmdLogin_spares (req : Option LoginRequest) : Spares cs (cmdLogin sv env c cs req) := by
  unfold cmdLogin
  cases loginCheck sv env cs req with
  | error e => exact .refuse ..
  | ok p => exact .of_ne nofun

theorem cmdCreate_spares (req : Option RegistrationRequest) :
    Spares cs (cmdCreate sv env cs req) := by
  rcases cmdCreate_cases sv env cs req with ⟨e, he⟩ | ⟨r, avatarUrl, e, -, hne, he⟩
  · rw [he]
    exact .refuse ..
  · rw [he]
    exact .of_ne hne

theorem cmdDelete_spares (req : Option (String × String)) :
    Spares cs (cmdDelete sv env cs req) := by
  rcases cmdDelete_cases sv env cs req with
    ⟨e, he⟩ | ⟨npid, password, user, -, -, -, -, he⟩ | ⟨userId, -, he⟩
  · rw [he]
    exact .refuse ..
  · rw [he]
    exact .of_ne nofun
  · rw [he]
    exact .of_ne nofun

/-- A friend command that writes answers otherwise. -/
theorem FriendCommand.apply_spares (fc : FriendCommand) (d : RelDecision) (t : Friendship)
    (h : (fc.apply d t).2 = .malformed) : (fc.apply d t).1 = t := by
  cases d with
  | reply e => rfl
  | set otherId newCaller newOther =>
    simp only [FriendCommand.apply] at h
    split at h <;> cases h
  | delete otherId =>
    simp only [FriendCommand.apply] at h
    split at h <;> cases h

theorem cmdFriend_spares (command : FriendCommandType) (npid : Option String) :
    Spares cs (cmdFriend env cs command npid) := by
  refine ⟨fun hm => ?_⟩
  have he : (FriendCommand.apply _ _ _).2 = .malformed := hm
  have hfriendship := FriendCommand.apply_spares _ _ _ he
  unfold cmdFriend
  simp only [he, hfriendship, reduceCtorEq, if_false]

theorem cmdSetAppearOffline_spares (req : Option Bool) : Spares cs (cmdSetAppearOffline cs req) := by
  cases req with
  | none => exact .refuse ..
  | some enable => exact .of_ne nofun

/-! ## Rooms -/

/-- What spares the rooms spares the whole state. -/
theorem onMatching_spares {f : MatchingState → MatchingResult} (h : ∀ m, Spares m (f m)) :
    Spares cs (onMatching cs f) := by
  refine ⟨fun hm => ?_⟩
  have hf := (h _).state hm
  unfold onMatching
  simp only [hf]

end CommandState

section Matching

variable (info : ClientInfo) (env : MatchingEnv) (m : MatchingState)

theorem cmdCreateRoom_spares (req : Option CreateRoomRequest) :
    Spares m (cmdCreateRoom info env m req) := by
  cases req with
  | none => exact .refuse ..
  | some req => exact .of_ne nofun

theorem cmdJoinRoom_spares (req : Option JoinRoomRequest) :
    Spares m (cmdJoinRoom info env m req) := by
  rcases cmdJoinRoom_cases info env m req with ⟨hs, -⟩ | ⟨r, room, _, _, _, -, -, -, -, -, he, -⟩
  · exact ⟨fun _ => hs⟩
  · exact .of_ne (by rw [he]; nofun)

theorem cmdLeaveRoom_spares (roomId : Option ℕ) : Spares m (cmdLeaveRoom info env m roomId) := by
  rcases cmdLeaveRoom_cases info env m roomId with ⟨e, he⟩ | ⟨rid, m', mid, -, -, he⟩
  · rw [he]
    exact .refuse ..
  · rw [he]
    exact .of_ne nofun

theorem cmdKickoutRoomMember_spares (req : Option KickoutRoomMemberRequest) :
    Spares m (cmdKickoutRoomMember info env m req) := by
  rcases cmdKickoutRoomMember_cases info env m req with
    ⟨e, he⟩ | ⟨r, room, initiator, target, -, -, -, -, -, -, he⟩
  · rw [he]
    exact .refuse ..
  · rw [he]
    exact .of_ne nofun

theorem cmdSetRoomDataInternal_spares (req : Option SetRoomDataInternalRequest) :
    Spares m (cmdSetRoomDataInternal info env m req) := by
  rcases cmdSetRoomDataInternal_cases info env m req with
    ⟨e, he⟩ | ⟨r, room, setterId, -, -, he⟩
  · rw [he]
    exact .refuse ..
  · rw [he]
    exact .of_ne nofun

theorem cmdSetRoomDataExternal_spares (req : Option SetRoomDataExternalRequest) :
    Spares m (cmdSetRoomDataExternal m req) := by
  rcases cmdSetRoomDataExternal_cases m req with ⟨e, he⟩ | ⟨r, room, -, -, he⟩
  · rw [he]
    exact .refuse ..
  · rw [he]
    exact .of_ne nofun

end Matching

/-- A command of a client who has logged in; scores are counted by the dispatcher of packets. -/
theorem dispatchCommand_spares (env : Env) (cs : CommandState) (cmd : Command) :
    Spares cs (dispatchCommand sv env c cs cmd) := by
  unfold dispatchCommand
  split
  · cases cmd with
    | terminate => exact .refuse ..
    | login req => exact cmdLogin_spares ..
    | create req => exact cmdCreate_spares ..
    | delete req => exact cmdDelete_spares ..
    | friend command npid => exact cmdFriend_spares ..
    | setAppearOffline req => exact cmdSetAppearOffline_spares ..
    | contextStart ctxId =>
      cases ctxId with
      | none => exact .refuse ..
      | some ctxId => exact .of_ne nofun
    | contextStop decoded =>
      cases decoded with
      | false => exact .refuse ..
      | true => exact .of_ne nofun
    | createRoom req => exact onMatching_spares _ fun m => cmdCreateRoom_spares ..
    | joinRoom req => exact onMatching_spares _ fun m => cmdJoinRoom_spares ..
    | leaveRoom roomId => exact onMatching_spares _ fun m => cmdLeaveRoom_spares ..
    | kickoutRoomMember req => exact onMatching_spares _ fun m => cmdKickoutRoomMember_spares ..
    | setRoomDataInternal req => exact onMatching_spares _ fun m => cmdSetRoomDataInternal_spares ..
    | setRoomDataExternal req => exact onMatching_spares _ fun m => cmdSetRoomDataExternal_spares ..
    | score comId => cases comId <;> exact .of_ne nofun
    | other => exact .refuse ..
  · -- before a login only these two get to their handlers
    cases cmd with
    | login req => exact cmdLogin_spares ..
    | create req => exact cmdCreate_spares ..
    | _ => exact .of_ne nofun

/-! ## Packets -/

section Packets

variable (env : DispatchEnv) (s : DispatchState) (payload : List UInt8)

theorem onQuery_spares {α : Type} (reply : α → DispatchReply) (r : Except ErrorType α) :
    Spares s (s.onQuery reply r) := by
  cases r with
  | error e => exact .refuse ..
  | ok a => exact .refuse ..

theorem onCommand_spares {r : CommandResult} (h : Spares s.toCommandState r) :
    Spares s (s.onCommand r) := by
  refine ⟨fun hm => ?_⟩
  have hr := h.state hm
  unfold DispatchState.onCommand
  simp only [hr]

theorem cmdRecordScore_spares (ss : ScoreState) (rs : RecordScore) (lookup : BoardLookup) :
    Spares ss (cmdRecordScore ss rs lookup) := by
  unfold cmdRecordScore
  split
  · exact .refuse ..
  · split
    · exact .of_ne nofun
    · split <;> exact .of_ne nofun

/-- A request that cannot be read changes neither file nor row. -/
theorem cmdRecordScoreData_spares (ss : ScoreSystem) (rs : RecordScoreData)
    (h : (cmdRecordScoreData ss rs).2 = .malformed) : (cmdRecordScoreData ss rs).1 = ss := by
  unfold cmdRecordScoreData at h ⊢
  split
  · rename_i req rawData hreq hraw
    simp only [hreq, hraw] at h
    -- a message and a blob that were read are never malformed
    split at h
    · cases h
    · cases h
    · cases h
    · split at h
      · cases h
      · split at h <;> cases h
  · rfl

/-- The score commands spare the state. -/
theorem runScoreCommand_spares (cmd : CommandType) :
    Spares s (runScoreCommand st env s payload cmd) := by
  unfold runScoreCommand
  simp only
  cases cmd with
  | getBoardInfos =>
    simp only
    cases decodeBoard env.outside payload with
    | none => exact .refuse ..
    | some board =>
      simp only [cmdGetBoardInfos]
      split <;> exact .of_ne nofun
  | recordScore =>
    refine ⟨fun hm => ?_⟩
    have hr := (cmdRecordScore_spares _ _ _).state hm
    simp only [hr]
  | recordScoreData =>
    refine ⟨fun hm => ?_⟩
    have hr := cmdRecordScoreData_spares _ _ hm
    simp only [hr]
  | getScoreData => exact .refuse ..
  | getScoreGameDataByAccId => exact .refuse ..
  | getScoreRange => exact onQuery_spares ..
  | getScoreFriends => exact onQuery_spares ..
  | getScoreNpid => exact onQuery_spares ..
  | getScoreAccountId => exact onQuery_spares ..
  | _ => exact .refuse ..

/-- Queries leave the session alone. -/
theorem runQuery_spares (cmd : CommandType) : Spares s (runQuery st env s payload cmd) := by
  unfold runQuery
  simp only
  cases cmd with
  | setUserInfo =>
    simp only
    cases decodeRequest env.outside payload st.messages.setUserInfo with
    | none => exact .refuse ..
    | some attrs => exact .of_ne nofun
  | getServerFeatures => exact onQuery_spares ..
  | getToken => exact onQuery_spares ..
  | searchRoom => exact onQuery_spares ..
  | getWorldInfoList => exact onQuery_spares ..
  | getRoomDataExternalList => exact onQuery_spares ..
  | getRoomMemberDataExternalList => exact onQuery_spares ..
  | getUserInfoList => exact onQuery_spares ..
  | requestSignalingInfos => exact onQuery_spares ..
  | sendRoomMessage => exact onQuery_spares ..
  | _ => exact .refuse ..

/-- **Every handler decodes first.** -/
theorem runCommand_spares (cmd : CommandType) : Spares s (runCommand st env c s payload cmd) := by
  unfold runCommand
  split
  · exact runScoreCommand_spares ..
  · split
    · exact onCommand_spares s (dispatchCommand_spares ..)
    · exact runQuery_spares ..

/-! ## The note -/

/-- The name that the client has given of its game, if it is online and has given one. -/
def DispatchState.clientTitle : Option String :=
  ((s.shared.clients.get? s.session.info.userId).map (·.titleName)).filter (· ≠ "")

/-- **The game of a packet is noted**: it gets the client's name for it, unless it has a name or the
statement does not run, and the user is counted under it. All else is as it was. -/
structure Noted (exec : Bool) (comId : String) (s' : DispatchState) : Prop where
  usage : s'.shared = (usageTouchGame s.shared s.session.info.userId comId).1
  title : ∀ k, s'.titleNames.get? k =
    (s.titleNames.get? k).or (if k = comId ∧ exec = true then s.clientTitle else none)
  rest : s' = { s with
    titleNames := s'.titleNames
    shared := { s.shared with
      usageGameUsers := s'.shared.usageGameUsers, usageClientGame := s'.shared.usageClientGame } }

/-- A title that has a name keeps it. -/
theorem setTitleName_get? (titleNames : Table String String) {comId titleName : String}
    (hcomId : comId ≠ "") (hname : titleName ≠ "") (exec : Bool) (k : String) :
    (setTitleName titleNames comId titleName exec).1.get? k =
      (titleNames.get? k).or (if k = comId ∧ exec = true then some titleName else none) := by
  unfold setTitleName
  rw [if_neg (by simp [hcomId, hname])]
  cases exec with
  | false => simp
  | true =>
    rw [if_neg (by simp)]
    by_cases hk : k = comId
    · subst hk
      cases hold : titleNames.get? k with
      | none => simp
      | some name => simp [hold]
    · have hset := Table.get?_set_ne (t := titleNames) (v := titleName) hk
      split
      · simp [hk]
      · simp [hk, hset]

/-- The title of a game is noted once. -/
theorem noteGame_title {comId : String} (hcomId : comId ≠ "") (k : String) :
    (s.noteGame env comId).titleNames.get? k =
      (s.titleNames.get? k).or (if k = comId ∧ env.titleOk = true then s.clientTitle else none) := by
  unfold DispatchState.noteGame DispatchState.clientTitle
  simp only
  cases s.shared.clients.get? s.session.info.userId with
  | none => simp
  | some e =>
    simp only [Option.map_some, Option.getD_some]
    by_cases hname : e.titleName = ""
    · simp [hname, Option.filter]
    · rw [if_pos ⟨hcomId, hname⟩, setTitleName_get? _ hcomId hname]
      simp [hname, Option.filter]

theorem noteGame_noted {comId : String} (hcomId : comId ≠ "") :
    Noted s env.titleOk comId (s.noteGame env comId) where
  usage := rfl
  title := noteGame_title env s hcomId
  rest := by
    have hframe := usageTouchGame_frame s.shared s.session.info.userId comId
    unfold DispatchState.noteGame
    simp only
    rw [← hframe]

/-! ## Results -/

/-- Inside the payload the memory has the payload's bytes. -/
theorem Region.read_of_inside (outside : ℤ → UInt8) {data : List UInt8} {r : Region}
    (h : r.Inside data) : r.read outside data = r.bytes data := by
  obtain ⟨hstart, hend⟩ := h
  unfold Region.read Region.bytes
  apply List.ext_getElem?
  intro i
  simp only [List.getElem?_map, List.getElem?_take, List.getElem?_drop]
  by_cases hi : i < r.len
  · have hpos : (r.start + i).toNat = r.start.toNat + i := by omega
    have hlt : r.start.toNat + i < data.length := by omega
    rw [List.getElem?_range hi, if_pos hi]
    simp only [Option.map_some]
    rw [if_neg (by omega), hpos, List.getElem?_eq_getElem hlt, Option.getD_some]
  · rw [List.getElem?_eq_none (by simpa using hi), if_neg hi]
    rfl

/-- Twelve bytes are there to be peeked at, or the dispatcher goes on without. -/
theorem peekComId_eq (outside : ℤ → UInt8) :
    peekComId outside payload =
      if 12 ≤ payload.length then some (fromLatin1 (payload.take 12)) else none := by
  have hwrap : wrap32 (0 + (12 : ℕ)) = 12 := by decide
  unfold peekComId StreamExtractor.peekBytes StreamExtractor.ofData
  simp only [hwrap]
  by_cases hlen : 12 ≤ payload.length
  · have hinside : Region.Inside ⟨0, 12⟩ payload := ⟨le_refl _, by simpa using hlen⟩
    rw [if_neg (by omega), if_pos hlen, Option.map_some, Region.read_of_inside outside hinside]
    rfl
  · rw [if_pos (by omega), if_neg hlen]
    rfl

/-- The state that the handler of a packet finds, of a client who has logged in. -/
def noted (cmd : CommandType) : DispatchState :=
  if cmd.leadsWithComId then
    match peekComId env.outside payload with
    | none => s
    | some comId => s.noteGame env comId
  else s

/-- Twelve bytes are enough for a game to be noted. -/
theorem noted_ok {cmd : CommandType} (hleads : cmd.leadsWithComId = true) (hlen : 12 ≤ payload.length) :
    Noted s env.titleOk (fromLatin1 (payload.take 12)) (noted env s payload cmd) := by
  have hcomId : fromLatin1 (payload.take 12) ≠ "" := by
    intro hempty
    have hnil : payload = [] := by simpa [fromLatin1] using hempty
    simp [hnil] at hlen
  have hpeek := peekComId_eq payload env.outside
  rw [if_pos hlen] at hpeek
  unfold noted
  rw [if_pos hleads, hpeek]
  exact noteGame_noted env s hcomId

/-- A payload without a communication id leaves the session as it is. -/
theorem noted_self {cmd : CommandType} (h : ¬ (cmd.leadsWithComId = true ∧ 12 ≤ payload.length)) :
    noted env s payload cmd = s := by
  unfold noted
  by_cases hleads : cmd.leadsWithComId = true
  · have hpeek := peekComId_eq payload env.outside
    rw [if_neg fun hlen => h ⟨hleads, hlen⟩] at hpeek
    rw [if_pos hleads, hpeek]
  · rw [if_neg hleads]

end Packets

/-! ## Packets as commands -/

/-- The command of `Server.step` that a packet stands for. -/
def Packet.decode (st : ServerSetup) (env : DispatchEnv) (p : Packet) : Command :=
  match CommandType.ofCode p.command with
  | none => .other
  | some .terminate => .terminate
  | some cmd =>
    if cmd.leadsWithComId then .score (peekComId env.outside p.payload)
    else (decodeCommand st env p.payload cmd).getD .other

/-- How a packet is decoded depends on its command. -/
theorem Packet.decode_eq (env : DispatchEnv) {p : Packet} {cmd : CommandType}
    (hcode : CommandType.ofCode p.command = some cmd) (hterm : cmd ≠ .terminate) :
    p.decode st env =
      if cmd.leadsWithComId then .score (peekComId env.outside p.payload)
      else (decodeCommand st env p.payload cmd).getD .other := by
  unfold Packet.decode
  rw [hcode]
  cases cmd with
  | terminate => exact absurd rfl hterm
  | _ => rfl

/-- A command that nobody decodes changes nothing. -/
theorem dispatchCommand_other (env : Env) (cs : CommandState) :
    (dispatchCommand sv env c cs .other).1 = cs := by
  unfold dispatchCommand
  split <;> rfl

/-- Before a login only these two get to their handlers. -/
theorem dispatchCommand_refused (env : DispatchEnv) {cs : CommandState} (payload : List UInt8)
    (hauth : cs.session.authenticated = false) {cmd : CommandType} (hlogin : cmd ≠ .login)
    (hcreate : cmd ≠ .create) :
    (dispatchCommand sv env.toEnv c cs
      (if cmd.leadsWithComId then .score (peekComId env.outside payload)
        else (decodeCommand st env payload cmd).getD .other)).1 = cs := by
  unfold dispatchCommand
  rw [if_neg (by simp [hauth])]
  cases cmd with
  | login => exact absurd rfl hlogin
  | create => exact absurd rfl hcreate
  | _ => rfl

/-- A packet is let through to a handler, or it is refused, or it is the end of the connection. -/
theorem dispatchPacket_cases (st : ServerSetup) (env : DispatchEnv) (c : ConnId)
    (s : DispatchState) (p : Packet) :
    (∃ cmd, CommandType.ofCode p.command = some cmd ∧ cmd ≠ .terminate ∧
      s.session.authenticated = true ∧
      dispatchPacket st env c s p = runCommand st env c (noted env s p.payload cmd) p.payload cmd) ∨
    (∃ cmd, CommandType.ofCode p.command = some cmd ∧ (cmd = .login ∨ cmd = .create) ∧
      s.session.authenticated = false ∧
      dispatchPacket st env c s p = runCommand st env c s p.payload cmd) ∨
    ∃ e, e ≠ .malformed ∧ dispatchPacket st env c s p = (s, e, none) ∧
      (dispatchCommand st.toServices env.toEnv c s.toCommandState (p.decode st env)).1 =
        s.toCommandState := by
  unfold dispatchPacket
  cases hcode : CommandType.ofCode p.command with
  | none =>
    have hdecode : p.decode st env = .other := by unfold Packet.decode; rw [hcode]
    have hother : (dispatchCommand st.toServices env.toEnv c s.toCommandState .other).1 =
        s.toCommandState := dispatchCommand_other env.toEnv s.toCommandState
    right; right
    by_cases hauth : s.session.authenticated = true
    · exact ⟨.invalid, nofun, by simp [hauth], hdecode ▸ hother⟩
    · exact ⟨.unauthorized, nofun, by simp [hauth], hdecode ▸ hother⟩
  | some cmd =>
    by_cases hterm : cmd = .terminate
    · subst hterm
      have hdecode : p.decode st env = .terminate := by unfold Packet.decode; rw [hcode]
      refine Or.inr (Or.inr ⟨.noError, nofun, rfl, ?_⟩)
      rw [hdecode]
      unfold dispatchCommand
      split <;> rfl
    by_cases hauth : s.session.authenticated = true
    · refine Or.inl ⟨cmd, rfl, hterm, hauth, ?_⟩
      cases cmd with
      | terminate => exact absurd rfl hterm
      | _ => exact if_neg (by simp [hauth])
    have hauth : s.session.authenticated = false := by simpa using hauth
    by_cases hlogin : cmd = .login
    · subst hlogin
      exact Or.inr (Or.inl ⟨.login, rfl, Or.inl rfl, hauth, if_pos (by simp [hauth])⟩)
    by_cases hcreate : cmd = .create
    · subst hcreate
      exact Or.inr (Or.inl ⟨.create, rfl, Or.inr rfl, hauth, if_pos (by simp [hauth])⟩)
    · refine Or.inr (Or.inr ⟨.unauthorized, nofun, ?_, ?_⟩)
      · cases cmd with
        | terminate => exact absurd rfl hterm
        | login => exact absurd rfl hlogin
        | create => exact absurd rfl hcreate
        | _ => exact if_pos (by simp [hauth])
      · rw [Packet.decode_eq env hcode hterm]
        exact dispatchCommand_refused env p.payload hauth hlogin hcreate

/-- Score handlers leave accounts, rooms and sessions alone. -/
theorem runScoreCommand_state (env : DispatchEnv) (s : DispatchState) (payload : List UInt8)
    (cmd : CommandType) : (runScoreCommand st env s payload cmd).1.toCommandState = s.toCommandState := by
  unfold runScoreCommand DispatchState.onQuery
  cases cmd <;> simp only <;> split <;> rfl

/-- Queries leave the state as it is. -/
theorem runQuery_state (env : DispatchEnv) (s : DispatchState) (payload : List UInt8)
    (cmd : CommandType) : (runQuery st env s payload cmd).1.toCommandState = s.toCommandState := by
  unfold runQuery DispatchState.onQuery
  cases cmd <;> simp only <;> split <;> rfl

/-- A command of the account server has its effect, and no other. -/
theorem runCommand_state (env : DispatchEnv) (s : DispatchState) (payload : List UInt8)
    {cmd : CommandType} (hleads : cmd.leadsWithComId = false) :
    (runCommand st env c s payload cmd).1.toCommandState =
      (dispatchCommand st.toServices env.toEnv c s.toCommandState
        ((decodeCommand st env payload cmd).getD .other)).1 := by
  unfold runCommand
  rw [if_neg (by simp [hleads])]
  cases decodeCommand st env payload cmd with
  | none => exact (runQuery_state env s payload cmd).trans (dispatchCommand_other ..).symm
  | some r => rfl

/-- The note counts the user as the score command of `Server.step` does. -/
theorem noted_state (env : DispatchEnv) (s : DispatchState) (payload : List UInt8) {cmd : CommandType}
    (hauth : s.session.authenticated = true) (hleads : cmd.leadsWithComId = true) :
    (noted env s payload cmd).toCommandState =
      (dispatchCommand st.toServices env.toEnv c s.toCommandState
        (.score (peekComId env.outside payload))).1 := by
  unfold noted dispatchCommand
  rw [if_pos hleads, if_pos hauth]
  cases peekComId env.outside payload <;> rfl

/-- **What a packet does** to accounts, clients, rooms and sessions is what its command does to them, so
that the runs of `Server.step` are those of packets. -/
theorem dispatchPacket_state (env : DispatchEnv) (s : DispatchState) (p : Packet) :
    (dispatchPacket st env c s p).1.toCommandState =
      (dispatchCommand st.toServices env.toEnv c s.toCommandState (p.decode st env)).1 := by
  rcases dispatchPacket_cases st env c s p with
    ⟨cmd, hcode, hterm, hauth, heq⟩ | ⟨cmd, hcode, hcmd, hauth, heq⟩ | ⟨e, -, heq, hstate⟩
  · rw [heq, Packet.decode_eq env hcode hterm]
    by_cases hleads : cmd.leadsWithComId = true
    · rw [if_pos hleads, ← noted_state env s p.payload hauth hleads]
      unfold runCommand
      rw [if_pos hleads]
      exact runScoreCommand_state ..
    · have hleads : cmd.leadsWithComId = false := by simpa using hleads
      rw [if_neg (by simp [hleads]), noted_self env s p.payload (by simp [hleads])]
      exact runCommand_state env s p.payload hleads
  · rw [heq]
    rcases hcmd with rfl | rfl
    · rw [Packet.decode_eq env hcode nofun]
      exact runCommand_state env s p.payload rfl
    · rw [Packet.decode_eq env hcode nofun]
      exact runCommand_state env s p.payload rfl
  · rw [heq, hstate]

/-! ## Malformed packets -/

/-- A packet of a client who has logged in that the dispatcher finds a `ComId` in. -/
def NamesGame (s : DispatchState) (p : Packet) : Prop :=
  s.session.authenticated = true ∧
    (∃ cmd, CommandType.ofCode p.command = some cmd ∧ cmd.leadsWithComId = true) ∧
    12 ≤ p.payload.length

/-- **A malformed packet.** Whatever the connection, the number and the payload, the server is as it
was before the packet, but for the note of a game whose `ComId` could be peeked at. -/
theorem malformed_leaves (st : ServerSetup) (env : DispatchEnv) (c : ConnId) (s : DispatchState)
    (p : Packet) (h : (dispatchPacket st env c s p).2.1 = .malformed) :
    (NamesGame s p → Noted s env.titleOk (fromLatin1 (p.payload.take 12))
      (dispatchPacket st env c s p).1) ∧
    (¬ NamesGame s p → (dispatchPacket st env c s p).1 = s) := by
  rcases dispatchPacket_cases st env c s p with
    ⟨cmd, hcode, -, hauth, heq⟩ | ⟨cmd, -, -, hauth, heq⟩ | ⟨e, he, heq, -⟩
  · rw [heq] at h
    have hstate := (runCommand_spares env (noted env s p.payload cmd) p.payload cmd).state h
    rw [heq, hstate]
    constructor
    · rintro ⟨-, ⟨cmd', hcode', hleads⟩, hlen⟩
      obtain rfl : cmd = cmd' := Option.some.inj (hcode.symm.trans hcode')
      exact noted_ok env s p.payload hleads hlen
    · intro hno
      exact noted_self env s p.payload fun ⟨hleads, hlen⟩ => hno ⟨hauth, ⟨cmd, hcode, hleads⟩, hlen⟩
  · rw [heq] at h ⊢
    have hstate := (runCommand_spares env s p.payload cmd).state h
    exact ⟨fun hgame => absurd hgame.1 (by rw [hauth]; nofun), fun _ => hstate⟩
  · rw [heq] at h
    exact absurd h he

/-! ### Twelve bytes of a score -/

/-- Decoders of messages that read nothing. -/
def Messages.none : Messages := by constructor <;> exact fun _ => Option.none

/-- A server whose messages cannot be read, and that has no worlds. -/
def ServerSetup.plain : ServerSetup := { Services.plain with
  messages := .none
  worldConfigs := ∅
  isMatching2Enabled := true }

/-- Iterations follow the list, and every database call succeeds. -/
def DispatchEnv.plain : DispatchEnv := { Env.plain with
  outside := fun _ => 0
  roomOrder := .listed
  worldOrder := .listed
  friendOrder := .listed
  score := ⟨0, 0, .runs, true, true, true⟩
  titleOk := true }

/-- Alice has logged in and said which game she plays. -/
def aliceInGame : DispatchState where
  toCommandState := (cmdLogin .plain .plain 0 ⟨aliceAndBob, {}, {}⟩
    (some { npid := "alice", password := "alice", titleName := "Game" })).1
  scores := ⟨⟨⟨∅, []⟩, ∅⟩, {}⟩

/-- A `RecordScore` that ends after its `ComId`. -/
def comIdOnly : Packet := ⟨31, 0, List.replicate 12 65⟩

theorem malformed_leaves_note :
    (dispatchPacket .plain .plain 0 aliceInGame comIdOnly).2.1 = .malformed ∧
    Noted aliceInGame true "AAAAAAAAAAAA" (dispatchPacket .plain .plain 0 aliceInGame comIdOnly).1 := by
  have hmalformed : (dispatchPacket .plain .plain 0 aliceInGame comIdOnly).2.1 = .malformed := by
    decide +kernel
  have hgame : NamesGame aliceInGame comIdOnly :=
    ⟨by decide +kernel, ⟨.recordScore, rfl, rfl⟩, by decide⟩
  exact ⟨hmalformed, (malformed_leaves .plain .plain 0 aliceInGame comIdOnly hmalformed).1 hgame⟩

/-- Her packet is malformed, and the game has a name from then on. -/
theorem malformed_names_game : ¬ ∀ st env c s p,
    (dispatchPacket st env c s p).2.1 = .malformed → (dispatchPacket st env c s p).1 = s := by
  intro h
  have hsame := h .plain .plain 0 aliceInGame comIdOnly (by decide +kernel)
  have hnamed : (dispatchPacket .plain .plain 0 aliceInGame comIdOnly).1.titleNames.get? "AAAAAAAAAAAA" =
      some "Game" := by decide +kernel
  have hunnamed : aliceInGame.titleNames.get? "AAAAAAAAAAAA" = none := by decide +kernel
  rw [hsame] at hnamed
  cases hunnamed.symm.trans hnamed

end ShadNet
