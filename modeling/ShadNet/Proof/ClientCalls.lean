import ShadNet.Proof.WebPush
import ShadNet.Spec.SampleClient

/-!
# Calls of the sample client

What the client writes for a call is what the server reads, so its handlers are called with the
arguments of the call. The numbers of the calls about rooms are not those of the server.

* `dispatch_call`: a call is served as what it says.
* `served_rooms`: a call about rooms does nothing, and one of them is told that all is well.
-/

namespace ShadNet.SampleClient

open Lib

variable (outside : ℤ → UInt8) {M : Type} (parse : List UInt8 → Option M)

/-! ## Payloads -/

theorem length_comIdBytes (comId : List UInt8) : (comIdBytes comId).length = 12 := by
  unfold comIdBytes
  rw [List.length_append, List.length_take, List.length_replicate]
  omega

/-- A blob that was read without an error is there. -/
theorem getRawData_isSome {x : StreamExtractor} (h : x.getRawData.1.error = false) :
    ∃ r, x.getRawData.2 = some r := by
  unfold StreamExtractor.getRawData at h ⊢
  simp only at h ⊢
  split at h
  · rename_i herror
    rw [herror] at h
    cases h
  · split at h
    · cases h
    · rename_i herror hinside
      exact ⟨_, by rw [if_neg herror, if_neg hinside]⟩

/-- A blob is read as it was written, wherever it stands. -/
theorem getRawData_blob {payload before msg after : List UInt8}
    (hpayload : payload = before ++ (toLe 4 msg.length ++ msg) ++ after)
    (hlen : payload.length < 2 ^ 31) :
    ∃ r, (readerAt payload before.length).getRawData =
        (readerAt payload (before ++ (toLe 4 msg.length ++ msg)).length, some r) ∧
      r.read outside payload = msg := by
  subst hpayload
  have hread := @reads_blob outside msg before after hlen
  obtain ⟨hbytes, hreader⟩ := Prod.mk.inj hread
  generalize before ++ (toLe 4 msg.length ++ msg) ++ after = payload at hbytes hreader ⊢
  have herror : (readerAt payload before.length).getRawData.1.error = false := by
    rw [hreader]
    rfl
  obtain ⟨r, hr⟩ := getRawData_isSome herror
  refine ⟨r, Prod.ext hreader hr, ?_⟩
  rw [hr] at hbytes
  exact hbytes

theorem decodeNext_of_getRawData {payload : List UInt8}
    {x y : StreamExtractor} {r : Region} (hraw : x.getRawData = (y, some r)) (herror : y.error = false) :
    decodeNext outside payload parse x = (y, parse (r.read outside payload)) := by
  have hproto : (x.decodeProto fun r => parse (r.read outside payload)) =
      (y, parse (r.read outside payload)) := by
    unfold StreamExtractor.decodeProto
    rw [hraw]
    simp only [herror, Bool.false_eq_true, if_false, Option.bind_some]
  unfold decodeNext
  rw [hproto]
  simp only [herror, Bool.false_eq_true, if_false]

/-- A message behind its length is parsed as it was written. -/
theorem decodeNext_blob {payload before msg after : List UInt8}
    (hpayload : payload = before ++ (toLe 4 msg.length ++ msg) ++ after)
    (hlen : payload.length < 2 ^ 31) :
    decodeNext outside payload parse (readerAt payload before.length) =
      (readerAt payload (before ++ (toLe 4 msg.length ++ msg)).length, parse msg) := by
  obtain ⟨r, hraw, hmsg⟩ := getRawData_blob outside hpayload hlen
  rw [decodeNext_of_getRawData outside parse hraw rfl, hmsg]

/-- A payload that is one message. -/
theorem decodeRequest_makeProtoPayload {payload msg : List UInt8}
    (hpayload : payload = makeProtoPayload msg) (hlen : payload.length < 2 ^ 31) :
    decodeRequest outside payload parse = parse msg := by
  have hblob : payload = [] ++ (toLe 4 msg.length ++ msg) ++ [] := by
    rw [List.nil_append, List.append_nil]
    exact hpayload
  exact congrArg Prod.snd (decodeNext_blob outside parse hblob hlen)

/-- The game that a score call is about, as the server spells it. -/
def gameOf (comId : List UInt8) : String := fromLatin1 (comIdBytes comId)

/-- The communication id of a call is read as the game that it names. -/
theorem readComId_comIdBytes (comId rest : List UInt8) :
    readComId outside (comIdBytes comId ++ rest) =
      (readerAt (comIdBytes comId ++ rest) 12, gameOf comId) := by
  have hlength := length_comIdBytes comId
  have hget := StreamExtractor.get_of_fits (posOk_readerAt [] (comIdBytes comId) rest) (w := 12)
    (by simp [readerAt])
  rw [if_neg (by simp only [readerAt, List.length_append, hlength, List.length_nil]; omega)] at hget
  have hread : readBytes outside (comIdBytes comId ++ rest) (some ⟨0, 12⟩) = comIdBytes comId := by
    have hbytes := @readBytes_readerAt outside [] (comIdBytes comId) rest 0 (by simp)
    rwa [hlength] at hbytes
  have hof : (StreamExtractor.ofData (comIdBytes comId ++ rest)).getBytes 12 =
      (readerAt (comIdBytes comId ++ rest) 12, some ⟨0, 12⟩) := hget
  unfold readComId
  rw [hof]
  simp only
  rw [hread]
  rfl

theorem peekComId_comIdBytes (comId rest : List UInt8) :
    peekComId outside (comIdBytes comId ++ rest) = some (gameOf comId) := by
  have hlength := length_comIdBytes comId
  rw [peekComId_eq, if_pos (by rw [List.length_append]; omega), List.take_left' hlength]
  rfl

/-- The message behind a `ComId`, with more behind it. -/
theorem decodeNext_makeScorePayload {payload comId msg after : List UInt8}
    (hpayload : payload = makeScorePayload comId msg ++ after) (hlen : payload.length < 2 ^ 31) :
    decodeNext outside payload parse (readComId outside payload).1 =
      (readerAt payload (makeScorePayload comId msg).length, parse msg) := by
  have hsplit : makeScorePayload comId msg = comIdBytes comId ++ (toLe 4 msg.length ++ msg) :=
    List.append_assoc ..
  rw [hsplit] at hpayload ⊢
  have hdecode := decodeNext_blob outside parse hpayload hlen
  rw [length_comIdBytes] at hdecode
  have hcomId : (readComId outside payload).1 = readerAt payload 12 := by
    rw [hpayload, List.append_assoc, readComId_comIdBytes]
  rw [hcomId, hdecode]

/-- **The message** of a score call is what the server decodes. -/
theorem decodeScoreRequest_makeScorePayload {payload comId msg after : List UInt8}
    (hpayload : payload = makeScorePayload comId msg ++ after) (hlen : payload.length < 2 ^ 31) :
    decodeScoreRequest outside payload parse = parse msg := by
  unfold decodeScoreRequest
  rw [decodeNext_makeScorePayload outside parse hpayload hlen]

theorem decodeRawData_of_getRawData {payload : List UInt8} {req : Option M}
    {x y : StreamExtractor} {r : Region}
    (hnext : decodeNext outside payload parse (readComId outside payload).1 = (x, req))
    (hraw : x.getRawData = (y, some r)) (herror : y.error = false) :
    decodeRawData outside payload parse = some (r.read outside payload) := by
  unfold decodeRawData
  rw [hnext]
  simp only [hraw, herror, Bool.false_eq_true, if_false]
  rfl

/-- **The data** behind it is what the server takes. -/
theorem decodeRawData_makeScorePayload {payload comId msg data : List UInt8}
    (hpayload : payload = makeScorePayload comId msg ++ (toLe 4 data.length ++ data))
    (hlen : payload.length < 2 ^ 31) : decodeRawData outside payload parse = some data := by
  have hblob : payload = makeScorePayload comId msg ++ (toLe 4 data.length ++ data) ++ [] := by
    rw [List.append_nil]
    exact hpayload
  obtain ⟨r, hraw, hdata⟩ := getRawData_blob outside hblob hlen
  have hnext := decodeNext_makeScorePayload outside parse hpayload hlen
  rw [decodeRawData_of_getRawData outside parse hnext hraw rfl, hdata]

/-- A communication id and the number of a board behind it are read back. -/
theorem decodeBoard_comIdBytes (comId : List UInt8) (boardId : UInt32) :
    decodeBoard outside (comIdBytes comId ++ toLe 4 boardId.toNat) =
      some (gameOf comId, boardId.toNat) := by
  have hlength := length_comIdBytes comId
  have hread := reads_u32 boardId.toNat_lt (comIdBytes comId) [] (by simp [hlength, length_toLe])
  rw [List.append_nil, hlength] at hread
  obtain ⟨hvalue, hreader⟩ := Prod.mk.inj hread
  unfold decodeBoard
  rw [readComId_comIdBytes]
  generalize comIdBytes comId ++ toLe 4 boardId.toNat = payload at hvalue hreader ⊢
  simp only
  rw [hvalue, hreader]
  simp [readerAt]

/-! ## What a call asks for -/

/-- The parser of the server reads the message of the call as the client has written it. -/
def Call.ReadBack (w : Writers) (m : Messages) : Call → Prop
  | .login npid password token =>
    m.login (w.login { npid, password, token }) = some { npid, password, token }
  | .createAccount npid password avatarUrl email secretKey =>
    m.registration (w.registration { npid, password, avatarUrl, email, secretKey }) =
      some { npid, password, avatarUrl, email, secretKey }
  | .sendFriendCommand _ targetNpid => m.friendCommand (w.friendCommand targetNpid) = some targetNpid
  | .matching _ _ => True
  | .getBoardInfos _ _ => True
  | .recordScore _ boardId pcId score comment gameInfo =>
    let req : RecordScoreRequest := ⟨boardId.toNat, pcId.toInt, score.toInt, comment, gameInfo⟩
    m.recordScore (w.recordScore req) = some req
  | .recordScoreData _ boardId pcId score _ =>
    let req : RecordScoreGameDataRequest := ⟨boardId.toNat, pcId.toInt, score.toInt⟩
    m.recordScoreGameData (w.recordScoreGameData req) = some req
  | .getScoreData _ boardId npid pcId =>
    let req : GetScoreGameDataRequest := ⟨npid, boardId.toNat, pcId.toInt⟩
    m.getScoreGameData (w.getScoreGameData req) = some req
  | .getScoreRange _ boardId startRank numRanks withComment withGameInfo =>
    let req : GetScoreRangeRequest :=
      ⟨boardId.toNat, startRank.toNat, numRanks.toNat, withComment, withGameInfo⟩
    m.getScoreRange (w.getScoreRange req) = some req
  | .getScoreNpid _ boardId targets withComment withGameInfo =>
    let req : GetScoreNpIdRequest :=
      ⟨boardId.toNat, targets.map fun t => (t.1, t.2.toInt), withComment, withGameInfo⟩
    m.getScoreNpId (w.getScoreNpId req) = some req
  | .getScoreAccountId _ boardId targets withComment withGameInfo =>
    let req : GetScoreAccountIdRequest :=
      ⟨boardId.toNat, targets.map fun t => (t.1.toInt, t.2.toInt), withComment, withGameInfo⟩
    m.getScoreAccountId (w.getScoreAccountId req) = some req
  | .getScoreGameDataByAccountId _ boardId accountId pcId =>
    let req : GetScoreGameDataByAccountIdRequest := ⟨accountId.toInt, boardId.toNat, pcId.toInt⟩
    m.getScoreGameDataByAccountId (w.getScoreGameDataByAccountId req) = some req
  | .getScoreFriends _ boardId includeSelf max withComment withGameInfo =>
    let req : GetScoreFriendsRequest :=
      ⟨boardId.toNat, includeSelf, max.toNat, withComment, withGameInfo⟩
    m.getScoreFriends (w.getScoreFriends req) = some req

section Served

variable (st : ServerSetup) (env : DispatchEnv) (c : ConnId) (s : DispatchState)

/-- A handler of those who have logged in. -/
def loggedIn (r : DispatchResult) : DispatchResult :=
  if s.session.authenticated then r else (s, .unauthorized, none)

/-- A handler of scores; it finds the user noted as playing the game. -/
def inGame (comId : List UInt8) (handler : DispatchState → DispatchResult) : DispatchResult :=
  loggedIn s (handler (s.noteGame env (gameOf comId)))

/-- A command about accounts and friends. -/
def onAccounts (cmd : Command) : DispatchResult :=
  s.onCommand (dispatchCommand st.toServices env.toEnv c s.toCommandState cmd)

/-- What the server has to do on a call: its handler, with the arguments of the call. It does not know the
calls about rooms, and takes the first of their numbers for `GetServerFeatures`. -/
def Call.served : Call → DispatchResult
  | .login npid password token => onAccounts st env c s (.login (some { npid, password, token }))
  | .createAccount npid password avatarUrl email secretKey =>
    onAccounts st env c s (.create (some { npid, password, avatarUrl, email, secretKey }))
  | .sendFriendCommand cmd targetNpid => onAccounts st env c s (.friend cmd (some targetNpid))
  | .matching .registerHandlers _ =>
    loggedIn s (s.onQuery .serverFeatures (cmdGetServerFeatures st.isMatching2Enabled))
  | .matching _ _ => loggedIn s (s, .invalid, none)
  | .getBoardInfos comId boardId => inGame env s comId fun s =>
    let r := cmdGetBoardInfos s.scores.scores.db env.score.created env.score.lookup
      (some (gameOf comId, boardId.toNat))
    { s with scores := { s.scores with scores := { s.scores.scores with db := r.1 } } }.onQuery
      .boardInfo r.2
  | .recordScore comId boardId pcId score comment gameInfo => inGame env s comId fun s =>
    let r := cmdRecordScore s.scores.scores ⟨s.session.info.userId, s.session.info.npid, gameOf comId,
      some ⟨boardId.toNat, pcId.toInt, score.toInt, comment, gameInfo⟩, env.score.timestamp,
      env.score.insertedAt, env.score.created, env.score.exec⟩ env.score.lookup
    ({ s with scores := { s.scores with scores := r.1 } }, r.2.1, r.2.2.map .rank)
  | .recordScoreData comId boardId pcId score data => inGame env s comId fun s =>
    let r := cmdRecordScoreData s.scores ⟨s.session.info.userId, gameOf comId,
      some ⟨boardId.toNat, pcId.toInt, score.toInt⟩, some data, env.score.opened, env.score.exec⟩
    ({ s with scores := r.1 }, r.2, none)
  | .getScoreData comId boardId npid pcId => inGame env s comId fun s =>
    let r := cmdGetScoreData (getUserId s.db) s.scores (gameOf comId)
      (some ⟨npid, boardId.toNat, pcId.toInt⟩)
    (s, r.1, r.2.map .gameData)
  | .getScoreRange comId boardId startRank numRanks withComment withGameInfo =>
    inGame env s comId fun s =>
      s.onQuery .scores (cmdGetScoreRange s.scores.scores.cache env.score.timestamp (gameOf comId)
        (some ⟨boardId.toNat, startRank.toNat, numRanks.toNat, withComment, withGameInfo⟩))
  | .getScoreNpid comId boardId targets withComment withGameInfo => inGame env s comId fun s =>
    s.onQuery .scores (cmdGetScoreNpid (getUserId s.db) s.scores.scores.cache env.score.timestamp
      (gameOf comId)
      (some ⟨boardId.toNat, targets.map fun t => (t.1, t.2.toInt), withComment, withGameInfo⟩))
  | .getScoreAccountId comId boardId targets withComment withGameInfo => inGame env s comId fun s =>
    s.onQuery .scores (cmdGetScoreAccountId s.scores.scores.cache env.score.timestamp (gameOf comId)
      (some ⟨boardId.toNat, targets.map fun t => (t.1.toInt, t.2.toInt), withComment, withGameInfo⟩))
  | .getScoreGameDataByAccountId comId boardId accountId pcId => inGame env s comId fun s =>
    let r := cmdGetScoreGameDataByAccId s.scores (gameOf comId)
      (some ⟨accountId.toInt, boardId.toNat, pcId.toInt⟩)
    (s, r.1, r.2.map .gameData)
  | .getScoreFriends comId boardId includeSelf max withComment withGameInfo =>
    inGame env s comId fun s =>
      s.onQuery .scores (cmdGetScoreFriends s.scores.scores.cache env.score.timestamp
        s.session.info.userId (friendIds s.shared env.friendOrder s.session.info.userId) (gameOf comId)
        (some ⟨boardId.toNat, includeSelf, max.toNat, withComment, withGameInfo⟩))

variable {st env c s}

/-- Before a login as well as after it these two are run. -/
theorem dispatch_open {p : Packet} {cmd : ShadNet.CommandType}
    (hcode : ShadNet.CommandType.ofCode p.command = some cmd) (hopen : cmd = .login ∨ cmd = .create) :
    dispatchPacket st env c s p = runCommand st env c s p.payload cmd := by
  unfold dispatchPacket
  rw [hcode]
  by_cases hauth : s.session.authenticated = true
  · rcases hopen with rfl | rfl <;> exact if_neg (by simp [hauth])
  · have hnot : (!s.session.authenticated) = true := by simpa using hauth
    rcases hopen with rfl | rfl <;> exact if_pos hnot

/-- A command other than login, account creation and termination is run once there is a login. -/
theorem dispatch_closed {p : Packet} {cmd : ShadNet.CommandType}
    (hcode : ShadNet.CommandType.ofCode p.command = some cmd) (hterm : cmd ≠ .terminate)
    (hlogin : cmd ≠ .login) (hcreate : cmd ≠ .create) :
    dispatchPacket st env c s p =
      loggedIn s (runCommand st env c (noted env s p.payload cmd) p.payload cmd) := by
  unfold dispatchPacket loggedIn noted
  rw [hcode]
  by_cases hauth : s.session.authenticated = true
  · rw [if_pos hauth]
    cases cmd with
    | terminate => exact absurd rfl hterm
    | _ => exact if_neg (by simp [hauth])
  · have hnot : (!s.session.authenticated) = true := by simpa using hauth
    rw [if_neg hauth]
    cases cmd with
    | terminate => exact absurd rfl hterm
    | login => exact absurd rfl hlogin
    | create => exact absurd rfl hcreate
    | _ => exact if_pos hnot

/-- Commands without a communication id are those of the account server. -/
theorem runCommand_onAccounts {payload : List UInt8} {cmd : ShadNet.CommandType} {r : Command}
    (hleads : cmd.leadsWithComId = false) (hdecode : decodeCommand st env payload cmd = some r) :
    runCommand st env c s payload cmd = onAccounts st env c s r := by
  unfold runCommand
  rw [if_neg (by simp [hleads]), hdecode]
  rfl

theorem dispatch_friend {p : Packet} {k : FriendCommandType} {cmd : ShadNet.CommandType}
    (hcode : ShadNet.CommandType.ofCode p.command = some cmd) {npid : Option String}
    (hdecode : decodeCommand st env p.payload cmd = some (.friend k npid)) :
    dispatchPacket st env c s p = onAccounts st env c s (.friend k npid) := by
  have hleads : cmd.leadsWithComId = false := by
    cases cmd <;> first | rfl | cases hdecode
  rw [dispatch_closed hcode (by rintro rfl; cases hdecode) (by rintro rfl; cases hdecode)
    (by rintro rfl; cases hdecode), noted_self _ _ _ (by simp [hleads]),
    runCommand_onAccounts hleads hdecode]
  unfold loggedIn
  split
  · rfl
  · -- the same refusal
    rename_i hauth
    unfold onAccounts dispatchCommand
    simp only [hauth]
    rfl

/-- The numbers of the calls about rooms. Only the first of them is one that the server knows. -/
theorem dispatch_matching {p : Packet} (call : MatchingCall) (serialised : List UInt8)
    (hcommand : p.command = (Call.matching call serialised).command.code) :
    dispatchPacket st env c s p = (Call.matching call serialised).served st env c s := by
  have hunknown : ShadNet.CommandType.ofCode p.command = none →
      dispatchPacket st env c s p = loggedIn s (s, .invalid, none) := by
    intro hcode
    unfold dispatchPacket loggedIn
    rw [hcode]
    by_cases hauth : s.session.authenticated = true
    · simp [hauth]
    · simp [hauth]
  cases call with
  | registerHandlers =>
    have hcode : ShadNet.CommandType.ofCode p.command = some .getServerFeatures := by
      rw [hcommand]
      rfl
    have hleads : ShadNet.CommandType.getServerFeatures.leadsWithComId = false := rfl
    rw [dispatch_closed hcode (by decide) (by decide) (by decide), noted_self _ _ _ (by simp [hleads])]
    rfl
  | _ => exact hunknown (by rw [hcommand]; rfl)

theorem dispatch_score {p : Packet} {cmd : ShadNet.CommandType}
    (hcode : ShadNet.CommandType.ofCode p.command = some cmd) (hleads : cmd.leadsWithComId = true)
    {comId rest : List UInt8} (hpayload : p.payload = comIdBytes comId ++ rest)
    {handler : DispatchState → DispatchResult}
    (hhandler : ∀ s, runScoreCommand st env s p.payload cmd = handler s) :
    dispatchPacket st env c s p = inGame env s comId handler := by
  have hpeek : peekComId env.outside p.payload = some (gameOf comId) := by
    rw [hpayload]
    exact peekComId_comIdBytes env.outside comId rest
  have hnoted : noted env s p.payload cmd = s.noteGame env (gameOf comId) := by
    unfold noted
    rw [if_pos hleads, hpeek]
  have hrun : runCommand st env c (s.noteGame env (gameOf comId)) p.payload cmd =
      handler (s.noteGame env (gameOf comId)) := by
    unfold runCommand
    rw [if_pos hleads]
    exact hhandler _
  rw [dispatch_closed hcode (by rintro rfl; cases hleads) (by rintro rfl; cases hleads)
    (by rintro rfl; cases hleads), hnoted, hrun]
  rfl

/-- The handler finds the game and the message. -/
theorem dispatch_scoreRequest {p : Packet} {cmd : ShadNet.CommandType}
    (hcode : ShadNet.CommandType.ofCode p.command = some cmd) (hleads : cmd.leadsWithComId = true)
    {comId msg after : List UInt8} (hpayload : p.payload = makeScorePayload comId msg ++ after)
    (hlen : p.payload.length < 2 ^ 31) {handler : DispatchState → DispatchResult}
    (hhandler : (readComId env.outside p.payload).2 = gameOf comId →
      (∀ {M : Type} (parse : List UInt8 → Option M),
        decodeScoreRequest env.outside p.payload parse = parse msg) →
      ∀ s, runScoreCommand st env s p.payload cmd = handler s) :
    dispatchPacket st env c s p = inGame env s comId handler := by
  have hsplit : p.payload = comIdBytes comId ++ (toLe 4 msg.length ++ msg ++ after) := by
    rw [hpayload, makeScorePayload, List.append_assoc, List.append_assoc, List.append_assoc]
  refine dispatch_score hcode hleads hsplit (hhandler ?_ ?_)
  · rw [hsplit, readComId_comIdBytes]
  · exact fun parse => decodeScoreRequest_makeScorePayload env.outside parse hpayload hlen

/-- **A call is served as what it says.** -/
theorem dispatch_call {w : Writers} (call : Call) (hread : call.ReadBack w st.messages) {p : Packet}
    (hcommand : p.command = call.command.code) (hpayload : p.payload = call.payload w)
    (hlen : p.payload.length < 2 ^ 31) :
    dispatchPacket st env c s p = call.served st env c s := by
  have hcode {cmd : ShadNet.CommandType} (h : ShadNet.CommandType.ofCode call.command.code = some cmd) :
      ShadNet.CommandType.ofCode p.command = some cmd := by
    rw [hcommand, h]
  -- all but one of the score calls send one message
  have hmessage {msg comId : List UInt8} (h : p.payload = makeScorePayload comId msg) :
      p.payload = makeScorePayload comId msg ++ [] := by
    rw [h, List.append_nil]
  cases call with
  | login npid password token =>
    rw [dispatch_open (hcode rfl) (Or.inl rfl)]
    refine runCommand_onAccounts rfl ?_
    unfold decodeCommand
    simp only
    rw [decodeRequest_makeProtoPayload env.outside _ hpayload hlen, hread]
  | createAccount npid password avatarUrl email secretKey =>
    rw [dispatch_open (hcode rfl) (Or.inr rfl)]
    refine runCommand_onAccounts rfl ?_
    unfold decodeCommand
    simp only
    rw [decodeRequest_makeProtoPayload env.outside _ hpayload hlen, hread]
  | sendFriendCommand cmd targetNpid =>
    have hnpid : decodeRequest env.outside p.payload st.messages.friendCommand = some targetNpid := by
      rw [decodeRequest_makeProtoPayload env.outside _ hpayload hlen, hread]
    have hfriend (cmd' : ShadNet.CommandType)
        (hcode' : ShadNet.CommandType.ofCode p.command = some cmd')
        (hdecode : decodeCommand st env p.payload cmd' = some (.friend cmd
          (decodeRequest env.outside p.payload st.messages.friendCommand))) :
        dispatchPacket st env c s p = onAccounts st env c s (.friend cmd (some targetNpid)) := by
      rw [hnpid] at hdecode
      exact dispatch_friend hcode' hdecode
    cases cmd with
    | addFriend => exact hfriend .addFriend (hcode rfl) rfl
    | removeFriend => exact hfriend .removeFriend (hcode rfl) rfl
    | addBlock => exact hfriend .addBlock (hcode rfl) rfl
    | removeBlock => exact hfriend .removeBlock (hcode rfl) rfl
  | matching call serialised => exact dispatch_matching call serialised hcommand
  | getBoardInfos comId boardId =>
    have hboard : decodeBoard env.outside p.payload = some (gameOf comId, boardId.toNat) := by
      rw [hpayload]
      exact decodeBoard_comIdBytes env.outside comId boardId
    rw [Call.served]
    refine dispatch_score (hcode rfl) rfl hpayload fun s => ?_
    unfold runScoreCommand
    simp only [hboard]
  | recordScore comId boardId pcId score comment gameInfo =>
    rw [Call.served]
    refine dispatch_scoreRequest (hcode rfl) rfl (hmessage hpayload) hlen fun hgame hreq s => ?_
    unfold runScoreCommand
    simp only [hgame, hreq, show st.messages.recordScore _ = some _ from hread]
  | recordScoreData comId boardId pcId score data =>
    have hdata : p.payload = makeScorePayload comId
        (w.recordScoreGameData ⟨boardId.toNat, pcId.toInt, score.toInt⟩) ++
          (toLe 4 data.length ++ data) := hpayload.trans (List.append_assoc ..)
    have hraw := decodeRawData_makeScorePayload env.outside st.messages.recordScoreGameData hdata hlen
    rw [Call.served]
    refine dispatch_scoreRequest (hcode rfl) rfl hdata hlen fun hgame hreq s => ?_
    unfold runScoreCommand
    simp only [hgame, hreq, hraw, show st.messages.recordScoreGameData _ = some _ from hread]
  | getScoreData comId boardId npid pcId =>
    rw [Call.served]
    refine dispatch_scoreRequest (hcode rfl) rfl (hmessage hpayload) hlen fun hgame hreq s => ?_
    unfold runScoreCommand
    simp only [hgame, hreq, show st.messages.getScoreGameData _ = some _ from hread]
  | getScoreRange comId boardId startRank numRanks withComment withGameInfo =>
    rw [Call.served]
    refine dispatch_scoreRequest (hcode rfl) rfl (hmessage hpayload) hlen fun hgame hreq s => ?_
    unfold runScoreCommand
    simp only [hgame, hreq, show st.messages.getScoreRange _ = some _ from hread]
  | getScoreNpid comId boardId targets withComment withGameInfo =>
    rw [Call.served]
    refine dispatch_scoreRequest (hcode rfl) rfl (hmessage hpayload) hlen fun hgame hreq s => ?_
    unfold runScoreCommand
    simp only [hgame, hreq, show st.messages.getScoreNpId _ = some _ from hread]
  | getScoreAccountId comId boardId targets withComment withGameInfo =>
    rw [Call.served]
    refine dispatch_scoreRequest (hcode rfl) rfl (hmessage hpayload) hlen fun hgame hreq s => ?_
    unfold runScoreCommand
    simp only [hgame, hreq, show st.messages.getScoreAccountId _ = some _ from hread]
  | getScoreGameDataByAccountId comId boardId accountId pcId =>
    rw [Call.served]
    refine dispatch_scoreRequest (hcode rfl) rfl (hmessage hpayload) hlen fun hgame hreq s => ?_
    unfold runScoreCommand
    simp only [hgame, hreq, show st.messages.getScoreGameDataByAccountId _ = some _ from hread]
  | getScoreFriends comId boardId includeSelf max withComment withGameInfo =>
    rw [Call.served]
    refine dispatch_scoreRequest (hcode rfl) rfl (hmessage hpayload) hlen fun hgame hreq s => ?_
    unfold runScoreCommand
    simp only [hgame, hreq, show st.messages.getScoreFriends _ = some _ from hread]

/-- **Calls about rooms do nothing.** The server says so, except for the one whose number it takes for
`GetServerFeatures`: of that one the client hears that all is well. -/
theorem served_rooms (call : MatchingCall) (serialised : List UInt8)
    (hauth : s.session.authenticated = true) :
    ((Call.matching call serialised).served st env c s).1 = s ∧
      (((Call.matching call serialised).served st env c s).2.1 = .noError ↔ call = .registerHandlers) ∧
      (call ≠ .registerHandlers →
        ((Call.matching call serialised).served st env c s).2 = (.invalid, none)) := by
  cases call with
  | registerHandlers =>
    rw [Call.served, loggedIn, if_pos hauth]
    exact ⟨rfl, iff_of_true rfl rfl, fun h => absurd rfl h⟩
  | _ =>
    rw [Call.served, loggedIn, if_pos hauth]
    · exact ⟨rfl, by simp, fun _ => rfl⟩
    · intro h
      cases h

end Served

end ShadNet.SampleClient
