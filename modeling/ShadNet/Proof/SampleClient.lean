import ShadNet.Proof.ClientCalls
import ShadNet.Proof.ClientReader

/-!
# The sample client and the server

* `updates_eq_feed`: the client takes whole packets off, and meets no corrupt one.
* `callServed`: of each reply it makes what the server has answered.
* `sample_client_served`: so each call is served as what it says, in the order of the calls, and its
  callback is told how that went.
-/

namespace ShadNet.SampleClient

open Lib

/-! ## The connection -/

section Connection

variable {limit : ℕ} {fs : List (ServerFrame limit)} {buf : List UInt8}

/-- The client finds the version that it knows. -/
theorem connect_greeting (more : List UInt8) : connect (serverInfo ++ more) = .ok more := by
  have hfit : serverInfo.length ≤ maxGuestPacket := by decide
  obtain ⟨g, hg, hgreeting⟩ := serverInfo_frame hfit
  obtain ⟨htype, -, -, hpayload⟩ := GuestPacket.mk.inj hgreeting
  have hlength : (g.bytes ++ more).length = headerSize + g.payload.length + more.length := by
    rw [List.length_append, g.length_bytes]
  have hversion : fromLe ((toLe 4 ShadNet.protocolVersion).take 4) = protocolVersion := by decide
  unfold connect
  rw [← hg]
  simp only [g.header_bytes (by decide) more, htype, g.drop_bytes, Nat.add_sub_cancel_left,
    List.take_left]
  rw [if_neg (by omega), if_neg (by simp), if_neg (lt_irrefl _)]
  rw [if_neg (by rw [hpayload, hversion]; simp), List.drop_left' g.length_bytes]

/-- The client's parser takes off whole packets and nothing else. -/
theorem sampleFrame_cuts (hlimit : limit < 2 ^ 32) :
    Cuts (@ServerFrame.bytes limit) parsePacket ServerFrame.packet :=
  takePacket_cuts hlimit fun size hheader _ => by omega

/-- What has arrived of a packet is not taken for a corrupt one. -/
theorem not_corrupt (hlimit : limit < 2 ^ 32) (htail : Unfinished ServerFrame.bytes buf fs) :
    corrupt buf = false := by
  unfold corrupt
  rw [decide_eq_false_iff_not]
  rintro ⟨hheader, hsize⟩
  cases fs with
  | nil =>
    obtain rfl : buf = [] := htail
    exact absurd hheader (by decide)
  | cons f fs =>
    rw [f.header_part hlimit htail.1 hheader] at hsize
    simp only at hsize
    omega

/-- On packets of the server the client's loop is `drain`. -/
theorem parse_eq_drain (hlimit : limit < 2 ^ 32) (hbuf : buf <+: stream ServerFrame.bytes fs)
    (fuel : ℕ) : parse fuel buf = drain parsePacket fuel buf := by
  induction fuel generalizing buf fs with
  | zero => rfl
  | succ fuel ih =>
    obtain ⟨now, later, tail, rfl, rfl, htail⟩ := exists_split hbuf
    cases now with
    | nil =>
      have hnone := (sampleFrame_cuts hlimit).unfinished htail
      simp only [parse, drain, stream_nil, List.nil_append, hnone, not_corrupt hlimit htail,
        Bool.false_eq_true, if_false]
    | cons f now =>
      have hrest : stream ServerFrame.bytes now ++ tail <+: stream ServerFrame.bytes (now ++ later) := by
        rwa [List.cons_append, stream_cons, stream_cons, List.append_assoc,
          List.prefix_append_right_inj] at hbuf
      simp only [parse, drain, stream_cons, List.append_assoc, (sampleFrame_cuts hlimit).whole, ih hrest]

theorem updates_eq_feed (hlimit : limit < 2 ^ 32) {chunks : List (List UInt8)}
    (hstart : buf ++ chunks.flatten <+: stream ServerFrame.bytes fs) {fuel : ℕ} (hfuel : fs.length < fuel) :
    updates fuel buf chunks = feed parsePacket fuel buf chunks := by
  induction chunks generalizing buf fs with
  | nil => rfl
  | cons chunk chunks ih =>
    rw [List.flatten_cons, ← List.append_assoc] at hstart
    have hfirst : buf ++ chunk <+: stream ServerFrame.bytes fs := (List.prefix_append _ _).trans hstart
    obtain ⟨now, later, tail, rfl, hsplit, htail⟩ := exists_split hfirst
    rw [List.length_append] at hfuel
    have hdrain : drain parsePacket fuel (buf ++ chunk) = some (now.map ServerFrame.packet, tail) := by
      rw [hsplit]
      exact drain_stream now (sampleFrame_cuts hlimit) htail (by omega)
    have hparse := (parse_eq_drain hlimit hfirst fuel).trans hdrain
    rw [hsplit, stream_append, List.append_assoc, List.prefix_append_right_inj] at hstart
    simp only [updates, feed, hparse, hdrain, Option.bind_some]
    rw [ih hstart (by omega)]

end Connection

/-! ## Replies -/

/-- What a handler of the server returns besides the state. -/
abbrev Answer := ErrorType × Option DispatchReply

/-- The payload of the reply to an answered request. -/
def payloadOf (encode : DispatchReply → ReplyBody) (a : Answer) : List UInt8 :=
  a.1.code :: ((a.2.map encode).getD .empty).bytes

/-- What was asked for, or why not. -/
def Told {α : Type} (reply : α → DispatchReply) (a : Answer) : Prop :=
  (∃ x, a = (.noError, some (reply x))) ∨ ∃ e, e ≠ .noError ∧ a = (e, none)

/-- A query is answered with what it tells. -/
theorem told_onQuery {α : Type} (s : DispatchState) (reply : α → DispatchReply) {q : Except ErrorType α}
    (hq : q ≠ .error .noError) : Told reply (s.onQuery reply q).2 := by
  cases q with
  | error e => exact Or.inr ⟨e, fun he => hq (by rw [he]), rfl⟩
  | ok x => exact Or.inl ⟨x, rfl⟩

theorem told_loggedIn {α : Type} {reply : α → DispatchReply} (s : DispatchState) {r : DispatchResult}
    (h : Told reply r.2) : Told reply (loggedIn s r).2 := by
  unfold loggedIn
  split
  · exact h
  · exact Or.inr ⟨.unauthorized, by decide, rfl⟩

/-- What the server tells on a call, when the client wants to know more than the error. -/
def Call.Answered (a : Answer) : Call → Prop
  | .login .. => Told (fun r => .command (.login r)) a
  | .getBoardInfos .. => Told .boardInfo a
  | .recordScore .. => Told .rank a
  | .getScoreData .. | .getScoreGameDataByAccountId .. => Told .gameData a
  | .getScoreRange .. | .getScoreNpid .. | .getScoreAccountId .. | .getScoreFriends .. => Told .scores a
  | .matching call _ => call ≠ .registerHandlers → a.1 ≠ .noError
  | .createAccount .. | .sendFriendCommand .. | .recordScoreData .. => True

theorem told_readGameData (s : ScoreSystem) (comId : String) (boardId : ℕ) (userId charId : ℤ) :
    Told .gameData ((readGameData s comId boardId userId charId).1,
      (readGameData s comId boardId userId charId).2.map .gameData) := by
  have hnone : Told DispatchReply.gameData (.notFound, none) := Or.inr ⟨.notFound, by decide, rfl⟩
  unfold readGameData
  split
  · exact hnone
  · split
    · exact hnone
    · exact Or.inl ⟨_, rfl⟩

/-- A login that is refused is given an error. -/
theorem loginCheck_ne_noError (sv : Services) (env : Env) (s : CommandState) (req : Option LoginRequest) :
    loginCheck sv env s req ≠ .error .noError := by
  intro h
  unfold loginCheck at h
  split at h
  · cases h
  · split at h
    · cases h
    · split_ifs at h <;> cases h

theorem told_login (st : ServerSetup) (env : DispatchEnv) (c : ConnId) (s : DispatchState)
    (req : Option LoginRequest) :
    Told (fun r => .command (.login r)) (onAccounts st env c s (.login req)).2 := by
  have hlogin : ∀ cs : CommandState, Told (fun r => DispatchReply.command (.login r))
      (s.onCommand (cmdLogin st.toServices env.toEnv c cs req)).2 := by
    intro cs
    unfold cmdLogin
    cases hcheck : loginCheck st.toServices env.toEnv cs req with
    | error e =>
      refine Or.inr ⟨e, ?_, rfl⟩
      rintro rfl
      exact loginCheck_ne_noError _ _ _ _ hcheck
    | ok p => exact Or.inl ⟨_, rfl⟩
  unfold onAccounts dispatchCommand
  split
  · exact hlogin _
  · exact hlogin _

/-- A call that is served is answered with what it tells. -/
theorem served_answered (st : ServerSetup) (env : DispatchEnv) (c : ConnId) (s : DispatchState)
    (call : Call) : call.Answered (call.served st env c s).2 := by
  cases call with
  | login npid password token => exact told_login st env c s _
  | getBoardInfos comId boardId =>
    refine told_loggedIn s (told_onQuery _ _ ?_)
    intro h
    unfold cmdGetBoardInfos at h
    simp only at h
    split at h <;> cases h
  | recordScore comId boardId pcId score comment gameInfo =>
    refine told_loggedIn s ?_
    unfold cmdRecordScore
    simp only
    split
    · exact Or.inr ⟨.dbFail, by decide, rfl⟩
    · split
      · exact Or.inr ⟨.scoreNotBest, by decide, rfl⟩
      · exact Or.inr ⟨.dbFail, by decide, rfl⟩
      · exact Or.inl ⟨_, rfl⟩
  | getScoreData comId boardId npid pcId =>
    refine told_loggedIn s ?_
    unfold cmdGetScoreData
    simp only
    split_ifs
    · exact Or.inr ⟨.malformed, by decide, rfl⟩
    · split
      · exact Or.inr ⟨.notFound, by decide, rfl⟩
      · exact told_readGameData ..
  | getScoreRange comId boardId startRank numRanks withComment withGameInfo =>
    exact told_loggedIn s (told_onQuery _ _ fun h => by cases h)
  | getScoreNpid comId boardId targets withComment withGameInfo =>
    exact told_loggedIn s (told_onQuery _ _ fun h => by cases h)
  | getScoreAccountId comId boardId targets withComment withGameInfo =>
    exact told_loggedIn s (told_onQuery _ _ fun h => by cases h)
  | getScoreGameDataByAccountId comId boardId accountId pcId =>
    refine told_loggedIn s ?_
    unfold cmdGetScoreGameDataByAccId
    simp only
    split_ifs
    · exact Or.inr ⟨.malformed, by decide, rfl⟩
    · exact told_readGameData ..
  | getScoreFriends comId boardId includeSelf max withComment withGameInfo =>
    exact told_loggedIn s (told_onQuery _ _ fun h => by cases h)
  | matching call serialised =>
    intro hcall
    have hserved : (Call.matching call serialised).served st env c s = loggedIn s (s, .invalid, none) := by
      cases call <;> first | exact absurd rfl hcall | rfl
    rw [hserved]
    unfold loggedIn
    split <;> simp
  | _ => trivial

/-- The client reads the body as it was written. A rank is not a message and is written as it is. -/
def Written (r : Readers) (encode : DispatchReply → ReplyBody) : DispatchReply → Prop
  | .command (.login pb) =>
    ∃ b, encode (.command (.login pb)) = .blob b ∧ r.login b.val = some pb
  | .boardInfo cfg => ∃ b, encode (.boardInfo cfg) = .blob b ∧ r.boardInfo b.val = some cfg
  | .rank rank => encode (.rank rank) = .u32 rank
  | .gameData data => ∃ b, encode (.gameData data) = .blob b ∧ b.val = data
  | .scores pb => ∃ b, encode (.scores pb) = .blob b ∧ r.getScore b.val = some pb
  | _ => True

/-- What an answer to a login says to the client. -/
def loginResult : Answer → LoginResult
  | (_, some (.command (.login pb))) => ⟨noError, pb.avatarUrl, pb.userId, pb.friends,
      pb.friendRequestsSent, pb.friendRequestsReceived, pb.blocked⟩
  | (e, _) => { error := e.code }

/-- What an answer about a board says to the client. -/
def boardInfo : Answer → BoardInfo
  | (_, some (.boardInfo cfg)) =>
    ⟨noError, cfg.rankLimit, cfg.updateMode, cfg.sortMode, cfg.uploadNumLimit, cfg.uploadSizeLimit⟩
  | (e, _) => { error := e.code }

/-- What an answer to a score says to the client. -/
def recordScoreResult : Answer → RecordScoreResult
  | (_, some (.rank rank)) => ⟨noError, rank % 2 ^ 32⟩
  | (e, _) => { error := e.code }

/-- What an answer with data says to the client. -/
def gameData : Answer → UInt8 × List UInt8
  | (_, some (.gameData data)) => (noError, data)
  | (e, _) => (e.code, [])

/-- Each entry with the comment and the bytes in its place. -/
def scoreEntries (pb : GetScoreResponse) : List ScoreRankEntry :=
  pb.rankArray.mapIdx fun i rank => ⟨rank, pb.commentArray.getD i "", pb.infoArray.getD i []⟩

/-- What an answer with ranks says to the client. -/
def scoreRangeResult : Answer → ScoreRangeResult
  | (_, some (.scores pb)) => ⟨noError, scoreEntries pb, pb.lastSortDate, pb.totalRecord⟩
  | (e, _) => { error := e.code }

/-- Of a call about rooms nothing but the error is told. -/
def roomResult (error : UInt8) : MatchingCall → Result
  | .registerHandlers => .registerHandlers error
  | .createRoom => .createRoom error none
  | .joinRoom => .joinRoom error none
  | .leaveRoom => .leaveRoom error 0
  | .getRoomList => .roomList error none
  | .requestSignalingInfos => .signalingInfos error none
  | .setRoomDataInternal => .setRoomDataInternal error 0
  | .setRoomDataExternal => .setRoomDataExternal error 0
  | .kickoutRoomMember => .kickoutRoomMember error 0

/-- What the callback of the call is to be told of the answer. -/
def Call.result (pendingFriendNpid : String) (a : Answer) : Call → Result
  | .login .. => .login (loginResult a)
  | .createAccount .. => .create a.1.code
  | .sendFriendCommand cmd _ => .friend cmd a.1.code pendingFriendNpid
  | .matching call _ => roomResult a.1.code call
  | .getBoardInfos .. => .boardInfos (boardInfo a)
  | .recordScore .. => .recordScore (recordScoreResult a)
  | .recordScoreData .. => .recordScoreData a.1.code
  | .getScoreData .. | .getScoreGameDataByAccountId .. => .getScoreData (gameData a).1 (gameData a).2
  | .getScoreRange .. | .getScoreNpid .. | .getScoreAccountId .. | .getScoreFriends .. =>
    .scoreRange (scoreRangeResult a)

section Replies

variable {r : Readers} {encode : DispatchReply → ReplyBody}

theorem code_ne_noError {e : ErrorType} (h : e ≠ .noError) : e.code ≠ noError := by
  cases e <;> first | exact absurd rfl h | decide

@[simp] theorem payloadOf_ne_nil (a : Answer) : payloadOf encode a ≠ [] := List.cons_ne_nil _ _

@[simp] theorem errorOf_payloadOf (a : Answer) : errorOf (payloadOf encode a) = a.1.code := rfl

theorem code_noError : ErrorType.noError.code = noError := rfl

/-- Behind the error is the length of the blob, and then the blob. -/
theorem payloadOf_blob {reply : DispatchReply} {b : { b : List UInt8 // b.length < 2 ^ 31 }}
    (hb : encode reply = .blob b) :
    let payload := payloadOf encode (.noError, some reply)
    fromLe ((payload.drop 1).take 4) = b.val.length ∧ payload.drop 5 = b.val ∧
      payload.length = 5 + b.val.length := by
  have hpayload : payloadOf encode (.noError, some reply) =
      noError :: (toLe 4 b.val.length ++ b.val) := by
    unfold payloadOf
    simp only [Option.map_some, Option.getD_some, hb]
    rfl
  have hfour : ((noError :: (toLe 4 b.val.length ++ b.val)).drop 1).take 4 = toLe 4 b.val.length :=
    List.take_left' (length_toLe 4 _)
  simp only [hpayload]
  refine ⟨?_, List.drop_left' (length_toLe 4 _), ?_⟩
  · rw [hfour]
    exact fromLe_u32 (lt_trans b.property (by decide))
  · simp only [List.length_cons, List.length_append, length_toLe]
    omega

/-- The blob of a reply is read back. -/
theorem extractBlob_payloadOf {reply : DispatchReply} {b : { b : List UInt8 // b.length < 2 ^ 31 }}
    (hb : encode reply = .blob b) :
    extractBlob (payloadOf encode (.noError, some reply)) 1 = some b.val := by
  obtain ⟨hlen, hrest, hsize⟩ := payloadOf_blob hb
  have hint : wrap32 b.val.length = b.val.length :=
    wrap32_of_lt (by omega) (by exact_mod_cast b.property)
  unfold extractBlob
  simp only [hlen, hrest, hsize, hint]
  rw [if_neg (by omega), if_neg (by omega), if_neg (by omega), List.take_length]

/-- A message is read as it was written, and an error as the error. -/
theorem Told.read {α : Type} {reply : α → DispatchReply} {parse : List UInt8 → Option α} {a : Answer}
    (h : Told reply a) (hwritten : ∀ x, a.2 = some (reply x) →
      ∃ b, encode (reply x) = .blob b ∧ parse b.val = some x) :
    (∃ x, a = (.noError, some (reply x)) ∧ errorOf (payloadOf encode a) = noError ∧
        ∃ blob, extractBlob (payloadOf encode a) 1 = some blob ∧ parse blob = some x) ∨
      ∃ e, a = (e, none) ∧ errorOf (payloadOf encode a) ≠ noError := by
  obtain ⟨x, rfl⟩ | ⟨e, he, rfl⟩ := h
  · obtain ⟨b, hb, hread⟩ := hwritten x rfl
    exact Or.inl ⟨x, rfl, rfl, b.val, extractBlob_payloadOf hb, hread⟩
  · exact Or.inr ⟨e, rfl, code_ne_noError he⟩

/-- The client reads from the reply to a login what the server tells. -/
theorem handleLoginReply_told {a : Answer} (h : Told (fun r => .command (.login r)) a)
    (hwritten : ∀ reply, a.2 = some reply → Written r encode reply) :
    handleLoginReply r (payloadOf encode a) = some (loginResult a) := by
  unfold handleLoginReply
  rw [if_neg (payloadOf_ne_nil a)]
  obtain ⟨pb, rfl, herror, blob, hblob, hread⟩ | ⟨e, rfl, herror⟩ := h.read fun pb => hwritten _
  · rw [if_pos herror, hblob, Option.map_some, hread]
    rfl
  · rw [if_neg herror]
    rfl

/-- The client reads from the reply about a board what the server tells. -/
theorem handleBoardInfosReply_told {a : Answer} (h : Told .boardInfo a)
    (hwritten : ∀ reply, a.2 = some reply → Written r encode reply) :
    handleBoardInfosReply r (payloadOf encode a) = some (boardInfo a) := by
  unfold handleBoardInfosReply
  rw [if_neg (payloadOf_ne_nil a)]
  obtain ⟨pb, rfl, herror, blob, hblob, hread⟩ | ⟨e, rfl, herror⟩ := h.read fun pb => hwritten _
  · rw [if_pos herror, hblob, Option.map_some, hread]
    rfl
  · rw [if_neg herror]
    rfl

/-- The client reads from the reply with scores what the server tells. -/
theorem handleScoreRangeReply_told {a : Answer} (h : Told .scores a)
    (hwritten : ∀ reply, a.2 = some reply → Written r encode reply) :
    handleScoreRangeReply r (payloadOf encode a) = some (scoreRangeResult a) := by
  unfold handleScoreRangeReply
  rw [if_neg (payloadOf_ne_nil a)]
  obtain ⟨pb, rfl, herror, blob, hblob, hread⟩ | ⟨e, rfl, herror⟩ := h.read fun pb => hwritten _
  · rw [if_pos herror, hblob, Option.map_some, hread]
    rfl
  · rw [if_neg herror]
    rfl

/-- The client reads from the reply to a score what the server tells. -/
theorem handleRecordScoreReply_told {a : Answer} (h : Told .rank a)
    (hwritten : ∀ reply, a.2 = some reply → Written r encode reply) :
    handleRecordScoreReply (payloadOf encode a) = recordScoreResult a := by
  obtain ⟨rank, rfl⟩ | ⟨e, he, rfl⟩ := h
  · have hbody : encode (.rank rank) = .u32 rank := hwritten _ rfl
    have hpayload : payloadOf encode (.noError, some (.rank rank)) = noError :: toLe 4 rank := by
      unfold payloadOf
      simp only [Option.map_some, Option.getD_some, hbody]
      rfl
    have hrank : fromLe (((noError :: toLe 4 rank).drop 1).take 4) = rank % 2 ^ 32 :=
      fromLe_toLe 4 rank
    unfold handleRecordScoreReply
    rw [hpayload, if_neg (List.cons_ne_nil _ _), if_pos ⟨rfl, by simp⟩, hrank]
    rfl
  · unfold handleRecordScoreReply
    simp only [payloadOf_ne_nil, errorOf_payloadOf, code_ne_noError he, if_false, false_and]
    rfl

/-- The client reads from the reply with a blob what the server tells. -/
theorem handleGetScoreDataReply_told {a : Answer} (h : Told .gameData a)
    (hwritten : ∀ reply, a.2 = some reply → Written r encode reply) :
    handleGetScoreDataReply (payloadOf encode a) = some (gameData a) := by
  obtain ⟨data, rfl⟩ | ⟨e, he, rfl⟩ := h
  · obtain ⟨b, hb, hdata⟩ := hwritten _ rfl
    obtain ⟨hlen, hrest, hsize⟩ := payloadOf_blob hb
    unfold handleGetScoreDataReply
    simp only [errorOf_payloadOf, code_noError, hlen, hrest, hsize]
    rw [if_pos ⟨trivial, by omega⟩, if_neg (by omega), List.take_length, hdata]
    rfl
  · unfold handleGetScoreDataReply
    simp only [errorOf_payloadOf, code_ne_noError he, if_false, false_and]
    rfl

/-- Of a refusal no message is read. -/
theorem handleMessageReply_error {α : Type} (read : List UInt8 → Option α) {a : Answer}
    (h : a.1 ≠ .noError) : handleMessageReply read (payloadOf encode a) = some (a.1.code, none) := by
  unfold handleMessageReply
  rw [if_neg (payloadOf_ne_nil a), errorOf_payloadOf, if_neg (code_ne_noError h)]

theorem handleRoomIdReply_error (read : List UInt8 → Option ℕ) {a : Answer} (h : a.1 ≠ .noError) :
    handleRoomIdReply read (payloadOf encode a) = some (a.1.code, 0) := by
  unfold handleRoomIdReply
  rw [if_neg (payloadOf_ne_nil a), errorOf_payloadOf, if_neg (code_ne_noError h)]

theorem ofCode_code (cmd : CommandType) : CommandType.ofCode cmd.code = some cmd := by
  cases cmd <;> rfl

/-- **A reply is read as what the server has answered.** -/
theorem handle_answered {call : Call} {a : Answer} (h : call.Answered a)
    (hwritten : ∀ reply, a.2 = some reply → Written r encode reply) (pendingFriendNpid : String)
    (id : ℕ) :
    handlePacket r pendingFriendNpid
        ⟨PacketType.reply.code, call.command.code, id, payloadOf encode a⟩ =
      .told (call.result pendingFriendNpid a) := by
  unfold handlePacket
  rw [if_neg (not_not.mpr rfl)]
  simp only [ofCode_code]
  cases call with
  | login npid password token =>
    exact congrArg (Handled.ofOption Result.login) (handleLoginReply_told h hwritten)
  | createAccount npid password avatarUrl email secretKey => rfl
  | sendFriendCommand cmd targetNpid => cases cmd <;> rfl
  | matching call serialised =>
    have hmessage : call ≠ .registerHandlers → ∀ {α : Type} (read : List UInt8 → Option α),
        handleMessageReply read (payloadOf encode a) = some (a.1.code, none) :=
      fun hcall _ read => handleMessageReply_error read (h hcall)
    have hroom : call ≠ .registerHandlers → ∀ read : List UInt8 → Option ℕ,
        handleRoomIdReply read (payloadOf encode a) = some (a.1.code, 0) :=
      fun hcall read => handleRoomIdReply_error read (h hcall)
    cases call with
    | registerHandlers => rfl
    | createRoom => exact congrArg (Handled.ofOption _) (hmessage (by decide) r.createRoom)
    | joinRoom => exact congrArg (Handled.ofOption _) (hmessage (by decide) r.joinRoom)
    | leaveRoom => exact congrArg (Handled.ofOption _) (hroom (by decide) r.leaveRoom)
    | getRoomList => exact congrArg (Handled.ofOption _) (hmessage (by decide) r.roomList)
    | requestSignalingInfos =>
      exact congrArg (Handled.ofOption _) (hmessage (by decide) r.signalingInfos)
    | setRoomDataInternal =>
      exact congrArg (Handled.ofOption _) (hroom (by decide) r.setRoomDataInternal)
    | setRoomDataExternal =>
      exact congrArg (Handled.ofOption _) (hroom (by decide) r.setRoomDataExternal)
    | kickoutRoomMember => exact congrArg (Handled.ofOption _) (hroom (by decide) r.kickoutRoomMember)
  | getBoardInfos comId boardId =>
    exact congrArg (Handled.ofOption Result.boardInfos) (handleBoardInfosReply_told h hwritten)
  | recordScore comId boardId pcId score comment gameInfo =>
    exact congrArg (Handled.told ∘ Result.recordScore) (handleRecordScoreReply_told h hwritten)
  | recordScoreData comId boardId pcId score data => rfl
  | getScoreData comId boardId npid pcId =>
    exact congrArg (Handled.ofOption _) (handleGetScoreDataReply_told h hwritten)
  | getScoreGameDataByAccountId comId boardId accountId pcId =>
    exact congrArg (Handled.ofOption _) (handleGetScoreDataReply_told h hwritten)
  | _ => exact congrArg (Handled.ofOption Result.scoreRange) (handleScoreRangeReply_told h hwritten)

end Replies

/-! ## Requests -/

/-- The packet carries the call. -/
def Carries (w : Writers) (call : Call) (p : Packet) : Prop :=
  p.command = call.command.code ∧ p.payload = call.payload w ∧
    headerSize + p.payload.length ≤ maxPacketSize

/-- The packets of two lists of calls are those of one after the other. -/
theorem packets_append (w : Writers) (id : UInt64) (now later : List Call) :
    ∃ id', packets w id (now ++ later) = packets w id now ++ packets w id' later := by
  induction now generalizing id with
  | nil => exact ⟨id, rfl⟩
  | cons call now ih =>
    obtain ⟨id', hid⟩ := ih (id + 1)
    exact ⟨id', by rw [List.cons_append, packets, packets, hid, List.cons_append]⟩

/-- What the calls send are requests. -/
theorem packets_frames {w : Writers} {calls : List Call} (id : UInt64)
    (hfit : ∀ call ∈ calls, headerSize + (call.payload w).length ≤ maxPacketSize) :
    ∃ frames : List RequestFrame, frames.map RequestFrame.bytes = packets w id calls ∧
      List.Forall₂ (Carries w) calls (frames.map RequestFrame.packet) := by
  induction calls generalizing id with
  | nil => exact ⟨[], rfl, .nil⟩
  | cons call calls ih =>
    obtain ⟨frames, hbytes, hcarries⟩ := ih (id + 1) fun call' h => hfit call' (List.mem_cons_of_mem _ h)
    have hsize := hfit call List.mem_cons_self
    have hcode : (UInt16.ofNat call.command.code).toNat = call.command.code := by
      cases call.command <;> rfl
    refine ⟨⟨UInt16.ofNat call.command.code, id, call.payload w, hsize⟩ :: frames, ?_, ?_⟩
    · rw [List.map_cons, hbytes, packets, buildPacket]
      congr 1
      unfold RequestFrame.bytes
      simp only [hcode]
    · exact .cons ⟨hcode, rfl, hsize⟩ hcarries

/-! ## Calls -/

/-- The call was served as what it says, and the client is told how that went. Of friend commands it tells
whom its latest one was about. -/
structure CallServed (setup : NetworkSetup) (c : ConnId) (r : Readers) (call : Call) (d : Dispatched) :
    Prop where
  result : d.result setup c = call.served setup.toServerSetup d.env c d.state
  told : ∀ pendingFriendNpid, handlePacket r pendingFriendNpid (d.replyPacket setup c) =
    .told (call.result pendingFriendNpid (d.result setup c).2)

/-- A call carried by a packet is served, and its reply read back. -/
theorem callServed {setup : NetworkSetup} {c : ConnId} {w : Writers} {r : Readers} {call : Call}
    {d : Dispatched} (hcarries : Carries w call d.packet) (hread : call.ReadBack w setup.messages)
    (hwritten : ∀ reply, (d.result setup c).2.2 = some reply → Written r setup.encodeReply reply) :
    CallServed setup c r call d := by
  obtain ⟨hcommand, hpayload, hsize⟩ := hcarries
  have hlen : d.packet.payload.length < 2 ^ 31 := by
    unfold headerSize maxPacketSize at hsize
    omega
  have hresult : d.result setup c = call.served setup.toServerSetup d.env c d.state :=
    dispatch_call call hread hcommand hpayload hlen
  refine ⟨hresult, fun pendingFriendNpid => ?_⟩
  have hanswered := served_answered setup.toServerSetup d.env c d.state call
  rw [← hresult] at hanswered
  have hreply : d.replyPacket setup c = ⟨PacketType.reply.code, call.command.code, d.packet.packetId,
      payloadOf setup.encodeReply (d.result setup c).2⟩ := by
    rw [← hcommand]
    rfl
  rw [hreply]
  exact handle_answered hanswered hwritten pendingFriendNpid d.packet.packetId

theorem length_packets (w : Writers) (id : UInt64) (calls : List Call) :
    (packets w id calls).length = calls.length := by
  induction calls generalizing id with
  | nil => rfl
  | cons call calls ih => rw [packets, List.length_cons, ih, List.length_cons]

/-- Of the calls, those whose requests have been taken. -/
theorem taken_calls {w : Writers} {id : UInt64} {calls : List Call} {now later : List RequestFrame}
    (hbytes : (now ++ later).map RequestFrame.bytes = packets w id calls)
    (hcarries : List.Forall₂ (Carries w) calls ((now ++ later).map RequestFrame.packet)) :
    (packets w id (calls.take now.length)).flatten = stream RequestFrame.bytes now ∧
      List.Forall₂ (Carries w) (calls.take now.length) (now.map RequestFrame.packet) ∧
      (later = [] → calls.drop now.length = []) := by
  have hlength := hcarries.length_eq
  rw [List.length_map, List.length_append] at hlength
  rw [List.map_append] at hbytes hcarries
  have htake := List.forall₂_take_append _ _ _ hcarries
  rw [List.length_map] at htake
  refine ⟨?_, htake, fun hlater => ?_⟩
  · obtain ⟨id', hid⟩ := packets_append w id (calls.take now.length) (calls.drop now.length)
    rw [List.take_append_drop, ← hbytes] at hid
    have hsame : (now.map RequestFrame.bytes).length =
        (packets w id (calls.take now.length)).length := by
      rw [length_packets, List.length_map, List.length_take]
      omega
    rw [← (List.append_inj hid hsame).1, stream, List.flatMap_def]
  · rw [hlater, List.length_nil] at hlength
    exact List.drop_eq_nil_of_le (by omega)

theorem interleaved_greeting {sent out : List (List UInt8)}
    (h : Interleaved (serverInfo :: sent) (serverInfo :: out)) : Interleaved sent out := by
  generalize hall : serverInfo :: out = all at h
  cases h with
  | own p hrest =>
    obtain ⟨-, rfl⟩ := List.cons.inj hall
    exact hrest
  | notification type payload hrest =>
    -- the types are not the same
    have hhead := congrArg List.head? (List.cons.inj hall).1
    cases hhead

/-- **The sample client is served**: on a connection that its calls arrive on, in whatever pieces, the
server has served some of them, in order, each as what it says; the client accepts the greeting, and reads
in whatever pieces one reply to each up to the first that is answered `Malformed`, or fewer if the
connection goes before; the reply tells it what the server has answered. -/
theorem sample_client_served (setup : NetworkSetup) (start : ServerStart) (events : List NetworkEvent)
    (n : ℕ) (c : ConnId) (conn : Connection)
    (hc : (networkAfter setup start events n).conns.get? c = some conn) (w : Writers) (r : Readers)
    (id : UInt64) (calls : List Call) (hread : ∀ call ∈ calls, call.ReadBack w setup.messages)
    (hfit : ∀ call ∈ calls, headerSize + (call.payload w).length ≤ maxPacketSize)
    (hreceived : conn.received <+: (packets w id calls).flatten) (out : List (List UInt8))
    (hout : Interleaved conn.sent (serverInfo :: out)) (hsize : ∀ p ∈ out, p.length < 2 ^ 31)
    (hwritten : ∀ d ∈ dispatched setup start events c n, ∀ reply,
      (d.result setup c).2.2 = some reply → Written r setup.encodeReply reply)
    (chunks : List (List UInt8)) (hchunks : chunks.flatten = out.flatten) (fuel : ℕ)
    (hfuel : out.length < fuel) :
    let done := dispatched setup start events c n
    ∃ now later answered replies, calls = now ++ later ∧
      conn.received = (packets w id now).flatten ++ conn.readBuf ∧
      (conn.received = (packets w id calls).flatten → nextPacket conn.readBuf = none → later = []) ∧
      connect (serverInfo ++ out.flatten) = .ok out.flatten ∧
      updates fuel [] chunks = some (replies, []) ∧
      answered <+: untilMalformed setup c done ∧
      (conn.socket ≠ .unconnected → answered = untilMalformed setup c done) ∧
      answersOf replies = answered.map (Dispatched.replyPacket setup c) ∧
      List.Forall₂ (CallServed setup c r) now done := by
  intro done
  obtain ⟨frames, hbytes, hcarries⟩ := packets_frames id hfit
  have hstream : (packets w id calls).flatten = stream RequestFrame.bytes frames := by
    rw [← hbytes, stream, List.flatMap_def]
  rw [hstream] at hreceived ⊢
  obtain ⟨hserves, hreplied⟩ := serves setup start events n hc
  obtain ⟨now, later, rfl, hsplit, hpackets, hrest⟩ := hserves frames hreceived
  obtain ⟨answered, hinitial, hsent, hall⟩ := hreplied.sent
  obtain ⟨htaken, hnow, hlater⟩ := taken_calls hbytes hcarries
  -- what the client reads
  rw [hsent] at hout
  have hlimit : 2 ^ 31 - 1 < 2 ^ 32 := by decide
  have hreplies := interleaved_greeting hout
  obtain ⟨gs, hgs, hgspackets⟩ := @replies_frames (2 ^ 31 - 1) setup c _ _
    (answered_packets hinitial hpackets) fun d hd =>
      Nat.le_sub_one_of_lt (hsize _ (hreplies.mem _ (List.mem_map_of_mem hd)))
  rw [← hgs] at hreplies
  obtain ⟨fs, hfs, hlength, hfeed, hanswers⟩ := feed_out (sampleFrame_cuts hlimit)
    (replies_own hgspackets) hreplies (fun p hp => Nat.le_sub_one_of_lt (hsize p hp)) hchunks hfuel
  have hstart : [] ++ chunks.flatten <+: stream ServerFrame.bytes fs := by
    rw [List.nil_append, hfs]
  have hupdates := updates_eq_feed hlimit hstart hlength
  refine ⟨calls.take now.length, calls.drop now.length, answered, fs.map ServerFrame.packet,
    (List.take_append_drop _ _).symm, by rw [htaken, hsplit], fun hall hnone => ?_,
    connect_greeting _, hupdates.trans hfeed, hinitial, hall, hanswers.trans hgspackets, ?_⟩
  · rw [hsplit, stream_append, List.append_cancel_left_eq] at hall
    exact hlater ((hrest hnone).eq_nil hall)
  · rw [← hpackets, List.forall₂_map_right_iff] at hnow
    refine List.forall₂_iff_zip.mpr ⟨hnow.length_eq, fun {call d} hmem => ?_⟩
    obtain ⟨hcall, hd⟩ := List.of_mem_zip hmem
    exact callServed (List.forall₂_zip hnow hmem) (hread call (List.mem_of_mem_take hcall)) (hwritten d hd)

/-! ### Alice logs in and records a score -/

/-- Each message is a number. -/
def Writers.plain : Writers where
  login _ := [1]
  registration _ := []
  friendCommand _ := []
  recordScore _ := [2]
  recordScoreGameData _ := []
  getScoreGameData _ := []
  getScoreRange _ := []
  getScoreFriends _ := []
  getScoreNpId _ := []
  getScoreAccountId _ := []
  getScoreGameDataByAccountId _ := []

/-- A client that logs in and records a score. -/
def aliceRecords : List Call := [.login "alice" "alice" "", .recordScore [71] 1 0 5 "" []]

/-- A server that knows Alice's login. -/
def alicesSetup : NetworkSetup := { NetworkSetup.plain with
  messages := { Messages.none with
    login := fun msg => if msg = [1] then some { npid := "alice", password := "alice" } else none
    recordScore := fun msg => if msg = [2] then some ⟨1, 0, 5, "", []⟩ else none }
  encodeReply := fun reply =>
    match reply with
    | .command (.login _) => .blob ⟨[3], by decide⟩
    | .rank rank => .u32 rank
    | _ => .empty }

/-- The second request is not all there when the loop runs first. -/
def alicesRun : List NetworkEvent :=
  let sent := (packets .plain 1 aliceRecords).flatten
  [.connect "10.0.0.2", .receive 0 (sent.take 30), .process 0 .plain, .process 0 .plain,
    .receive 0 (sent.drop 30), .process 0 .plain]

/-- Readers that can read the reply to a login. -/
def alicesReaders : Readers where
  login _ := some ⟨"", 1, [], [], [], []⟩
  boardInfo _ := none
  getScore _ := none
  createRoom _ := none
  joinRoom _ := none
  roomList _ := none
  signalingInfos _ := none
  leaveRoom _ := none
  setRoomDataInternal _ := none
  setRoomDataExternal _ := none
  kickoutRoomMember _ := none

/-- A notification comes in between. -/
def alicesOut : List (List UInt8) :=
  [replyTo ⟨0, 1, []⟩ .noError (.blob ⟨[3], by decide⟩), buildNotification .friendNew [7],
    replyTo ⟨31, 2, []⟩ .noError (.u32 1)]

theorem alices_answers : (dispatched alicesSetup .plain alicesRun 0 6).map
    (fun d => (d.result alicesSetup 0).2) =
      [(.noError, some (.command (.login ⟨"", 1, [], [], [], []⟩))), (.noError, some (.rank 1))] := rfl

theorem sample_client_served_alice : ∃ replies,
    updates 4 [] [alicesOut.flatten.take 20, alicesOut.flatten.drop 20] = some (replies, []) ∧
      List.Forall₂ (CallServed alicesSetup 0 alicesReaders) aliceRecords
        (dispatched alicesSetup .plain alicesRun 0 6) := by
  have hrun : ((networkAfter alicesSetup .plain alicesRun 6).conns.get? 0).map
      (fun conn => (conn.received, conn.sent, conn.readBuf)) =
      some ((packets .plain 1 aliceRecords).flatten,
        [serverInfo, replyTo ⟨0, 1, []⟩ .noError (.blob ⟨[3], by decide⟩),
          replyTo ⟨31, 2, []⟩ .noError (.u32 1)], []) := by
    decide +kernel
  obtain ⟨conn, hconn, heq⟩ := Option.map_eq_some_iff.mp hrun
  obtain ⟨hreceived, heq⟩ := Prod.mk.inj heq
  obtain ⟨hsent, hbuf⟩ := Prod.mk.inj heq
  have hread : ∀ call ∈ aliceRecords, call.ReadBack .plain alicesSetup.messages := by
    intro call hcall
    simp only [aliceRecords, List.mem_cons, List.not_mem_nil, or_false] at hcall
    obtain rfl | rfl := hcall
    · rfl
    · rfl
  have hout : Interleaved conn.sent (serverInfo :: alicesOut) := by
    rw [hsent]
    exact .own _ (.own _ (.notification _ _ (.own _ .nil)))
  have hwritten : ∀ d ∈ dispatched alicesSetup .plain alicesRun 0 6, ∀ reply,
      (d.result alicesSetup 0).2.2 = some reply → Written alicesReaders alicesSetup.encodeReply reply := by
    intro d hd reply hreply
    have hmem := List.mem_map_of_mem (f := fun d => (d.result alicesSetup 0).2) hd
    rw [alices_answers] at hmem
    simp only [List.mem_cons, List.not_mem_nil, or_false] at hmem
    obtain hlogin | hrank := hmem
    · rw [hlogin] at hreply
      obtain rfl := Option.some.inj hreply
      exact ⟨_, rfl, rfl⟩
    · rw [hrank] at hreply
      obtain rfl := Option.some.inj hreply
      exact rfl
  obtain ⟨now, later, answered, replies, hcalls, -, hlater, -, hupdates, -, -, -, hserved⟩ :=
    sample_client_served alicesSetup .plain alicesRun 6 0 conn hconn .plain alicesReaders 1 aliceRecords
      hread (by decide) (by rw [hreceived]) alicesOut hout (by decide) hwritten
      [alicesOut.flatten.take 20, alicesOut.flatten.drop 20] (by decide) 4 (by decide)
  obtain rfl := hlater hreceived (by rw [hbuf]; rfl)
  rw [List.append_nil] at hcalls
  rw [hcalls]
  exact ⟨replies, hupdates, hserved⟩

end ShadNet.SampleClient
