import ShadNet.Lib.Refinement
import ShadNet.Proof.Dispatch
import ShadNet.Proof.PacketReader
import ShadNet.Spec.ShadNetServer

/-!
# What reaches the state through the network

The bytes of clients do nothing but make the server run the commands that its packets stand for.

* `step_simulates`: an event of the network is a command of `Server.step`, or none.
* `step_scores`: and it is events of the score system.
* `network_refines`: so a run of the network is a run of either.
* `serves`: on every connection requests are served once and in order, whatever arrives on the
  others, and in whatever pieces; and answered until the connection is closed.
-/

namespace ShadNet

open Lib

variable {setup : NetworkSetup} {w : ShadNetServer} {s : Server} {c : ConnId} {conn : Connection}

/-! ## Commands -/

/-- The accounts, what is shared and who is logged in on which connection are the same. -/
structure Simulates (w : ShadNetServer) (s : Server) : Prop where
  db : s.db = w.db
  shared : s.shared = w.shared
  conns : ∀ c, s.conns.get? c = (w.conns.get? c).map (·.session)
  gone : ∀ c, c ∈ s.gone ↔ (w.conns.get? c).map (·.socket) = some .unconnected
  nextConn : s.nextConn = w.nextConn
  /-- numbers that were not given yet belong to no connection -/
  fresh : ∀ c, w.nextConn ≤ c → w.conns.get? c = none

/-- The commands that an event stands for. -/
def ShadNetServer.commands (setup : NetworkSetup) (w : ShadNetServer) : NetworkEvent → List Event
  | .connect _ => [.connect]
  | .receive _ _ => []
  | .process c env =>
    match w.conns.get? c with
    | none => []
    | some conn =>
      match iteration conn.readBuf with
      | .exit _ => []
      | .packet p _ =>
        let env := w.dispatchEnv conn env
        [.request c (p.decode setup.toServerSetup env) env.toEnv]
  | .datagram _ _ _ => []
  | .disconnect c env => [.disconnect c env]

/-- A request does to its connection what it does to its session. -/
theorem Connection.answer_session (session : ClientSession) (readBuf : List UInt8) (result : ErrorType)
    (reply : List UInt8) : (conn.answer session readBuf result reply).session = session := by
  unfold Connection.answer
  split <;> rfl

theorem Connection.disconnectFromHost_gone :
    conn.disconnectFromHost.socket = .unconnected ↔ conn.socket = .unconnected := by
  unfold Connection.disconnectFromHost
  cases hsocket : conn.socket <;> simp

theorem Connection.answer_gone (session : ClientSession) (readBuf : List UInt8) (result : ErrorType)
    (reply : List UInt8) :
    (conn.answer session readBuf result reply).socket = .unconnected ↔ conn.socket = .unconnected := by
  unfold Connection.answer
  split
  · exact Connection.disconnectFromHost_gone
  · rfl

/-- A connection that has changed, but for its cleanup. -/
theorem Simulates.set {w' : ShadNetServer} {s' : Server} {new : Connection} (h : Simulates w s)
    (hc : w.conns.get? c = some conn) (hsocket : new.socket = .unconnected ↔ conn.socket = .unconnected)
    (hdb : s'.db = w'.db) (hshared : s'.shared = w'.shared)
    (hconns : s'.conns = s.conns.set c new.session) (hnew : w'.conns = w.conns.set c new)
    (hgone : s'.gone = s.gone) (hs : s'.nextConn = s.nextConn) (hw : w'.nextConn = w.nextConn) :
    Simulates w' s' := by
  refine ⟨hdb, hshared, fun c' => ?_, fun c' => ?_, by rw [hs, hw, h.nextConn], fun c' hle => ?_⟩
  · rw [hconns, hnew, Table.get?_set, Table.get?_set]
    split
    · rfl
    · exact h.conns c'
  · rw [hgone, hnew, Table.get?_set]
    split
    · rename_i heq
      rw [heq, h.gone, hc]
      simpa using hsocket.symm
    · exact h.gone c'
  · have hnone := h.fresh c' (hw ▸ hle)
    have hne : c' ≠ c := by
      rintro rfl
      cases hnone.symm.trans hc
    rw [hnew, Table.get?_set_ne hne, hnone]

/-- A connection whose session is as it was. -/
theorem Simulates.touch {w' : ShadNetServer} {new : Connection} (h : Simulates w s)
    (hc : w.conns.get? c = some conn) (hsession : new.session = conn.session)
    (hsocket : new.socket = .unconnected ↔ conn.socket = .unconnected) (hdb : w'.db = w.db)
    (hshared : w'.shared = w.shared) (hnew : w'.conns = w.conns.set c new)
    (hw : w'.nextConn = w.nextConn) : Simulates w' s := by
  have hset : Simulates w' { s with conns := s.conns.set c new.session } :=
    h.set hc hsocket (h.db.trans hdb.symm) (h.shared.trans hshared.symm) rfl hnew rfl rfl hw
  refine ⟨hset.db, hset.shared, fun c' => ?_, hset.gone, hset.nextConn, hset.fresh⟩
  rw [← hset.conns c', Table.get?_set]
  split
  · rename_i heq
    rw [heq, h.conns c, hc, hsession, Option.map_some]
  · rfl

/-- **A packet is its command.** -/
theorem processed_simulates (h : Simulates w s) (hc : w.conns.get? c = some conn) (env : DispatchEnv)
    (p : Packet) (readBuf : List UInt8) :
    let env' := w.dispatchEnv conn env
    Simulates (w.processed setup c conn env p readBuf)
      (s.step setup.toServices (.request c (p.decode setup.toServerSetup env') env'.toEnv)) := by
  intro env'
  have hstate := @dispatchPacket_state setup.toServerSetup c env' (w.dispatchState conn) p
  have hsession : s.conns.get? c = some conn.session := by
    rw [h.conns c, hc, Option.map_some]
  have hcs : (⟨s.db, s.shared, conn.session⟩ : CommandState) = (w.dispatchState conn).toCommandState := by
    rw [h.db, h.shared]
    rfl
  simp only [Server.step, hsession]
  rw [hcs, ← hstate]
  refine h.set hc (conn.answer_gone ..) rfl rfl ?_ rfl rfl rfl rfl
  rw [Connection.answer_session]

/-- A connection is live until its socket is gone. -/
theorem Simulates.live (h : Simulates w s) (c : ConnId) : s.live c = (w.conns.get? c).bind fun conn =>
    if conn.socket = .unconnected then none else some conn.session := by
  unfold Server.live
  cases hc : w.conns.get? c with
  | none =>
    rw [h.conns c, hc]
    exact ite_self _
  | some conn =>
    simp only [h.gone c, h.conns c, hc, Option.map_some, Option.some.injEq, Option.bind_some]

/-- A new connection comes to both. -/
theorem connect_simulates (h : Simulates w s) (peerAddress : String) :
    Simulates (w.step setup (.connect peerAddress)) (s.step setup.toServices .connect) := by
  simp only [Server.step, ShadNetServer.step]
  refine ⟨h.db, h.shared, fun c => ?_, fun c => ?_, congrArg (· + 1) h.nextConn, fun c hle => ?_⟩
  · rw [Table.get?_set, Table.get?_set, h.nextConn]
    split
    · rfl
    · exact h.conns c
  · rw [h.gone, Table.get?_set]
    split
    · rename_i heq
      simp [heq, h.fresh w.nextConn le_rfl]
    · rfl
  · have hlt : w.nextConn < c := hle
    rw [Table.get?_set_ne (Nat.ne_of_gt hlt)]
    exact h.fresh c hlt.le

/-- The cleanup of a connection, with its socket gone. -/
theorem Simulates.cleanup (h : Simulates w s) (hc : w.conns.get? c = some conn) (env : Env) :
    Simulates
      { w with
        shared := cleanupOnDisconnect env conn.session w.shared
        conns := w.conns.set c (conn.disconnected (conn.session.cleanedUp env w.shared)) }
      { s with
        shared := cleanupOnDisconnect env conn.session s.shared
        conns := s.conns.set c (conn.session.cleanedUp env s.shared)
        gone := c :: s.gone } := by
  rw [h.shared]
  refine ⟨h.db, rfl, fun c' => ?_, fun c' => ?_, h.nextConn, fun c' hle => ?_⟩
  · rw [Table.get?_set, Table.get?_set]
    split
    · rfl
    · exact h.conns c'
  · rw [List.mem_cons, Table.get?_set]
    split
    · rename_i heq
      exact iff_of_true (Or.inl heq) rfl
    · rename_i hne
      rw [or_iff_right hne]
      exact h.gone c'
  · have hne : c' ≠ c := by
      rintro rfl
      cases (h.fresh _ hle).symm.trans hc
    exact (Table.get?_set_ne hne).trans (h.fresh c' hle)

/-- A connection goes from both, once. -/
theorem disconnect_simulates (h : Simulates w s) (c : ConnId) (env : Env) :
    Simulates (w.step setup (.disconnect c env)) (s.step setup.toServices (.disconnect c env)) := by
  have hlive := h.live c
  simp only [Server.step, ShadNetServer.step]
  cases hc : w.conns.get? c with
  | none =>
    rw [hc] at hlive
    simp only [hlive, Option.bind_none]
    exact h
  | some conn =>
    rw [hc, Option.bind_some] at hlive
    by_cases hgone : conn.socket = .unconnected
    · rw [if_pos hgone] at hlive
      simp only [hlive, if_pos hgone]
      exact h
    · rw [if_neg hgone] at hlive
      simp only [hlive, if_neg hgone]
      exact h.cleanup hc env

/-- **An event of the network is a command**, or none. -/
theorem step_simulates (setup : NetworkSetup) : Refines Simulates
    (fun w e => ShadNetServer.step w setup e) (Server.step setup.toServices)
    (ShadNetServer.commands setup) := by
  intro w s e h
  cases e with
  | connect peerAddress => exact connect_simulates h peerAddress
  | receive c chunk =>
    simp only [ShadNetServer.commands, List.foldl_nil, ShadNetServer.step]
    cases hc : w.conns.get? c with
    | none =>
      rw [Table.modify_of_none hc]
      exact h
    | some conn =>
      rw [Table.modify_of_some hc]
      refine h.touch hc ?_ ?_ rfl rfl rfl rfl
      · unfold Connection.receive
        split <;> rfl
      · unfold Connection.receive
        split <;> rfl
  | process c env =>
    simp only [ShadNetServer.commands, ShadNetServer.step]
    cases hc : w.conns.get? c with
    | none => exact h
    | some conn =>
      simp only
      cases iteration conn.readBuf with
      | exit e =>
        simp only [List.foldl_nil]
        split
        · refine h.touch hc ?_ Connection.disconnectFromHost_gone rfl rfl rfl rfl
          rfl
        · exact h
      | packet p readBuf => exact processed_simulates h hc env p readBuf
  | datagram raw sender senderPort => exact ⟨h.db, h.shared, h.conns, h.gone, h.nextConn, h.fresh⟩
  | disconnect c env => exact disconnect_simulates h c env

/-! ## Scores -/

/-- A step of the score system, without its answer. -/
def scoreStep (s : ScoreSystem) (e : ScoreEvent) : ScoreSystem := (s.step e).1

/-- The event that makes an unknown board known and does no more. -/
def createBoard (comId : String) (boardId : ℕ) (created : Bool) (lookup : BoardLookup) : ScoreEvent :=
  .recordScore ⟨0, "", comId, some ⟨boardId, 0, 0, "", []⟩, 0, 0, created, false⟩ lookup

theorem scoreStep_createBoard (s : ScoreSystem) (comId : String) (boardId : ℕ) (created : Bool)
    (lookup : BoardLookup) : scoreStep s (createBoard comId boardId created lookup) =
      { s with scores :=
        { s.scores with db := (getBoard s.scores.db comId boardId created lookup).1 } } := by
  simp only [scoreStep, createBoard, ScoreSystem.step, cmdRecordScore]
  rcases hboard : getBoard s.scores.db comId boardId created lookup with ⟨db, cfg⟩
  cases cfg with
  | none => rfl
  | some cfg => rfl

/-- What a packet means to the score system. -/
def Packet.scoreEvents (st : ServerSetup) (env : DispatchEnv) (s : DispatchState) (p : Packet) :
    List ScoreEvent :=
  let m := st.messages
  let info := s.session.info
  let comId := (readComId env.outside p.payload).2
  if s.session.authenticated then
    match CommandType.ofCode p.command with
    | some .getBoardInfos =>
      ((decodeBoard env.outside p.payload).map fun board =>
        createBoard board.1 board.2 env.score.created env.score.lookup).toList
    | some .recordScore => [.recordScore ⟨info.userId, info.npid, comId,
        decodeScoreRequest env.outside p.payload m.recordScore, env.score.timestamp,
        env.score.insertedAt, env.score.created, env.score.exec⟩ env.score.lookup]
    | some .recordScoreData => [.recordScoreData ⟨info.userId, comId,
        decodeScoreRequest env.outside p.payload m.recordScoreGameData,
        decodeRawData env.outside p.payload m.recordScoreGameData, env.score.opened, env.score.exec⟩]
    | _ => []
  else []

theorem runQuery_scores (st : ServerSetup) (env : DispatchEnv) (s : DispatchState)
    (payload : List UInt8) (cmd : CommandType) :
    (runQuery st env s payload cmd).1.scores = s.scores := by
  unfold runQuery DispatchState.onQuery
  cases cmd <;> simp only <;> split <;> rfl

theorem runCommand_scores (st : ServerSetup) (env : DispatchEnv) (s : DispatchState)
    (payload : List UInt8) {cmd : CommandType} (hleads : cmd.leadsWithComId = false) :
    (runCommand st env c s payload cmd).1.scores = s.scores := by
  unfold runCommand
  rw [if_neg (by simp [hleads])]
  split
  · rfl
  · exact runQuery_scores st env s payload cmd

/-- The note of a game changes neither the scores nor the session. -/
theorem noted_same (env : DispatchEnv) (s : DispatchState) (payload : List UInt8) (cmd : CommandType) :
    (noted env s payload cmd).scores = s.scores ∧ (noted env s payload cmd).session = s.session := by
  unfold noted
  split
  · split <;> exact ⟨rfl, rfl⟩
  · exact ⟨rfl, rfl⟩

theorem runScoreCommand_scores (st : ServerSetup) (env : DispatchEnv) (s s' : DispatchState)
    (p : Packet) {cmd : CommandType} (hcode : CommandType.ofCode p.command = some cmd)
    (hauth : s.session.authenticated = true) (hscores : s'.scores = s.scores)
    (hsession : s'.session = s.session) :
    (runScoreCommand st env s' p.payload cmd).1.scores =
      (p.scoreEvents st env s).foldl scoreStep s.scores := by
  unfold Packet.scoreEvents
  simp only [if_pos hauth, hcode]
  cases cmd with
  | getBoardInfos =>
    unfold runScoreCommand
    simp only
    cases decodeBoard env.outside p.payload with
    | none => simpa [cmdGetBoardInfos, DispatchState.onQuery] using hscores
    | some board =>
      obtain ⟨comId, boardId⟩ := board
      simp only [Option.map_some, Option.toList_some, List.foldl_cons, List.foldl_nil]
      rw [scoreStep_createBoard, ← hscores]
      simp only [cmdGetBoardInfos]
      rcases getBoard s'.scores.scores.db comId boardId env.score.created env.score.lookup with ⟨db, cfg⟩
      cases cfg <;> rfl
  | recordScore =>
    unfold runScoreCommand
    simp only [List.foldl_cons, List.foldl_nil, scoreStep, ScoreSystem.step]
    rw [hscores, hsession]
  | recordScoreData =>
    unfold runScoreCommand
    simp only [List.foldl_cons, List.foldl_nil, scoreStep, ScoreSystem.step]
    rw [hscores, hsession]
  | _ =>
    unfold runScoreCommand DispatchState.onQuery
    simp only [List.foldl_nil]
    first
    | exact hscores
    | (split <;> exact hscores)

/-- A packet of any other command records no score. -/
theorem scoreEvents_quiet (st : ServerSetup) (env : DispatchEnv) {s : DispatchState} {p : Packet}
    (h : ∀ cmd, CommandType.ofCode p.command = some cmd → cmd.leadsWithComId = true →
      s.session.authenticated = false) : p.scoreEvents st env s = [] := by
  unfold Packet.scoreEvents
  cases hcode : CommandType.ofCode p.command with
  | none => exact ite_self _
  | some cmd =>
    by_cases hleads : cmd.leadsWithComId = true
    · rw [if_neg (by simp [h cmd hcode hleads])]
    · cases cmd <;> first | exact ite_self _ | exact absurd rfl hleads

/-- **What a packet does to the scores.** -/
theorem dispatchPacket_scores (st : ServerSetup) (env : DispatchEnv) (s : DispatchState) (p : Packet) :
    (dispatchPacket st env c s p).1.scores = (p.scoreEvents st env s).foldl scoreStep s.scores := by
  by_cases hscore : ∃ cmd, CommandType.ofCode p.command = some cmd ∧ cmd.leadsWithComId = true ∧
      s.session.authenticated = true
  · obtain ⟨cmd, hcode, hleads, hauth⟩ := hscore
    have hrun : dispatchPacket st env c s p =
        runScoreCommand st env (noted env s p.payload cmd) p.payload cmd := by
      have hcommand : runCommand st env c (noted env s p.payload cmd) p.payload cmd =
          runScoreCommand st env (noted env s p.payload cmd) p.payload cmd := if_pos hleads
      rw [← hcommand]
      unfold dispatchPacket
      rw [hcode]
      cases cmd <;> first | exact if_neg (by simp [hauth]) | cases hleads
    obtain ⟨hscores, hsession⟩ := noted_same env s p.payload cmd
    rw [hrun]
    exact runScoreCommand_scores st env s _ p hcode hauth hscores hsession
  · have hquiet : p.scoreEvents st env s = [] := by
      refine scoreEvents_quiet st env fun cmd hcode hleads => ?_
      by_contra hauth
      exact hscore ⟨cmd, hcode, hleads, by simpa using hauth⟩
    rw [hquiet, List.foldl_nil]
    rcases dispatchPacket_cases st env c s p with
      ⟨cmd, hcode, -, hauth, heq⟩ | ⟨cmd, -, hcmd, -, heq⟩ | ⟨e, -, heq, -⟩
    · have hleads : cmd.leadsWithComId = false := by
        by_contra hleads
        exact hscore ⟨cmd, hcode, by simpa using hleads, hauth⟩
      rw [heq, runCommand_scores st env _ p.payload hleads, (noted_same env s p.payload cmd).1]
    · have hleads : cmd.leadsWithComId = false := by
        rcases hcmd with rfl | rfl <;> rfl
      rw [heq, runCommand_scores st env s p.payload hleads]
    · rw [heq]

/-- What an event means to the score system. -/
def ShadNetServer.scoreEvents (setup : NetworkSetup) (w : ShadNetServer) :
    NetworkEvent → List ScoreEvent
  | .process c env =>
    match w.conns.get? c with
    | none => []
    | some conn =>
      match iteration conn.readBuf with
      | .exit _ => []
      | .packet p _ => p.scoreEvents setup.toServerSetup (w.dispatchEnv conn env) (w.dispatchState conn)
  | _ => []

/-- **An event of the network is events of the score system.** -/
theorem step_scores (setup : NetworkSetup) : Refines (fun w s => w.scores = s)
    (fun w e => ShadNetServer.step w setup e) scoreStep (ShadNetServer.scoreEvents setup) := by
  rintro w s e rfl
  cases e with
  | process c env =>
    simp only [ShadNetServer.scoreEvents, ShadNetServer.step]
    cases hc : w.conns.get? c with
    | none => rfl
    | some conn =>
      simp only
      cases iteration conn.readBuf with
      | exit e =>
        simp only
        split <;> rfl
      | packet p readBuf => exact dispatchPacket_scores setup.toServerSetup _ (w.dispatchState conn) p
  | disconnect c env =>
    simp only [ShadNetServer.scoreEvents, ShadNetServer.step]
    split
    · rfl
    · split <;> rfl
  | _ => rfl

/-! ## Runs -/

/-- The commands of the first `n` events. -/
def networkCommands (setup : NetworkSetup) (start : ServerStart) (events : List NetworkEvent) (n : ℕ) :
    List Event :=
  answers (fun w e => ShadNetServer.step w setup e) (ShadNetServer.commands setup) start.server events n

theorem network_simulates (setup : NetworkSetup) (start : ServerStart) (events : List NetworkEvent)
    (n : ℕ) : Simulates (networkAfter setup start events n)
      (configuredServerAfter setup.toServices start.db start.titleGroups
        (networkCommands setup start events n) (networkCommands setup start events n).length) := by
  have h0 : Simulates start.server
      { db := start.db, shared := { matching := { titleGroups := start.titleGroups } } } :=
    ⟨rfl, rfl, fun _ => rfl, fun _ => by simp [ServerStart.server], rfl, fun _ _ => rfl⟩
  unfold configuredServerAfter
  rw [runAt_length]
  exact (step_simulates setup).run h0 events n

/-- A packet that was taken off a buffer, and what the server was then. -/
structure Dispatched where
  env : DispatchEnv
  state : DispatchState
  packet : Packet

namespace Dispatched

variable (setup : NetworkSetup) (c : ConnId) (d : Dispatched)

/-- What the dispatcher makes of the packet. -/
def result : DispatchResult := dispatchPacket setup.toServerSetup d.env c d.state d.packet

/-- What the handler has written. -/
def body : ReplyBody := ((d.result setup c).2.2.map setup.encodeReply).getD .empty

/-- The packet that is sent back. -/
def reply : List UInt8 := replyTo d.packet (d.result setup c).2.1 (d.body setup c)

end Dispatched

/-- What an event takes off the buffer of the connection. -/
def ShadNetServer.dispatches (c : ConnId) (w : ShadNetServer) : NetworkEvent → List Dispatched
  | .process c' env =>
    if c' = c then
      match w.conns.get? c with
      | none => []
      | some conn =>
        match iteration conn.readBuf with
        | .exit _ => []
        | .packet p _ => [⟨w.dispatchEnv conn env, w.dispatchState conn, p⟩]
    else []
  | _ => []

/-- What the first `n` events have taken off it. -/
def dispatched (setup : NetworkSetup) (start : ServerStart) (events : List NetworkEvent) (c : ConnId)
    (n : ℕ) : List Dispatched :=
  answers (fun w e => ShadNetServer.step w setup e) (ShadNetServer.dispatches c) start.server events n

/-- What a connection has made of requests that arrive on it, or of a part of them: some have been
served, once and in order, and the buffer holds the rest. When the loop finds no packet there, no
request is in it as a whole. -/
def Serves (conn : Connection) (done : List Dispatched) : Prop :=
  ∀ frames : List RequestFrame, conn.received <+: stream RequestFrame.bytes frames →
    ∃ now later, frames = now ++ later ∧
      conn.received = stream RequestFrame.bytes now ++ conn.readBuf ∧
      done.map (·.packet) = now.map RequestFrame.packet ∧
      (nextPacket conn.readBuf = none → Unfinished RequestFrame.bytes conn.readBuf later)

/-- The requests up to the first that is answered `Malformed`. -/
def untilMalformed (setup : NetworkSetup) (c : ConnId) : List Dispatched → List Dispatched
  | [] => []
  | d :: done =>
    d :: if (d.result setup c).2.1 = .malformed then [] else untilMalformed setup c done

/-- What a connection has sent: one reply to each of its requests, up to the first `Malformed`. A
connection that goes before sends no more. -/
structure Replied (setup : NetworkSetup) (c : ConnId) (conn : Connection) (done : List Dispatched) :
    Prop where
  sent : ∃ answered, answered <+: untilMalformed setup c done ∧
    conn.sent = serverInfo :: answered.map (Dispatched.reply setup c) ∧
    (conn.socket ≠ .unconnected → answered = untilMalformed setup c done)
  connected : conn.socket = .connected → ∀ d ∈ done, (d.result setup c).2.1 ≠ .malformed
  /-- the loop has closed it, by an answer or by an exit -/
  closing : conn.socket = .closing →
    (∃ d ∈ done, (d.result setup c).2.1 = .malformed) ∨ nextPacket conn.readBuf = none

theorem untilMalformed_initial (done : List Dispatched) : untilMalformed setup c done <+: done := by
  induction done with
  | nil => exact List.prefix_rfl
  | cons d done ih =>
    unfold untilMalformed
    rw [List.prefix_cons_inj]
    split
    · exact List.nil_prefix
    · exact ih

/-- A list with no `Malformed` in it is taken whole, and the next request with it. -/
theorem untilMalformed_append {done : List Dispatched}
    (h : ∀ d ∈ done, (d.result setup c).2.1 ≠ .malformed) (d : Dispatched) :
    untilMalformed setup c (done ++ [d]) = done ++ [d] := by
  induction done with
  | nil => simp [untilMalformed]
  | cons d' done ih =>
    rw [List.cons_append, untilMalformed, if_neg (h d' List.mem_cons_self),
      ih fun d hd => h d (List.mem_cons_of_mem _ hd)]

theorem untilMalformed_of_none {done : List Dispatched}
    (h : ∀ d ∈ done, (d.result setup c).2.1 ≠ .malformed) : untilMalformed setup c done = done := by
  induction done with
  | nil => rfl
  | cons d' done ih =>
    rw [untilMalformed, if_neg (h d' List.mem_cons_self), ih fun d hd => h d (List.mem_cons_of_mem _ hd)]

/-- Requests after a `Malformed` do not count. -/
theorem untilMalformed_closed {done : List Dispatched}
    (h : ∃ d ∈ done, (d.result setup c).2.1 = .malformed) (more : List Dispatched) :
    untilMalformed setup c (done ++ more) = untilMalformed setup c done := by
  induction done with
  | nil =>
    obtain ⟨d, hd, -⟩ := h
    cases hd
  | cons d' done ih =>
    rw [List.cons_append, untilMalformed, untilMalformed]
    by_cases hd' : (d'.result setup c).2.1 = .malformed
    · rw [if_pos hd', if_pos hd']
    · rw [if_neg hd', if_neg hd', ih]
      obtain ⟨d, hd, hmal⟩ := h
      rcases List.mem_cons.mp hd with rfl | hd
      · exact absurd hmal hd'
      · exact ⟨d, hd, hmal⟩

theorem untilMalformed_mono (done more : List Dispatched) :
    untilMalformed setup c done <+: untilMalformed setup c (done ++ more) := by
  by_cases h : ∃ d ∈ done, (d.result setup c).2.1 = .malformed
  · exact untilMalformed_closed h more ▸ List.prefix_rfl
  · push Not at h
    rw [untilMalformed_of_none h]
    induction done with
    | nil => exact List.nil_prefix
    | cons d' done ih =>
      rw [List.cons_append, untilMalformed, if_neg (h d' List.mem_cons_self), List.prefix_cons_inj]
      exact ih fun d hd => h d (List.mem_cons_of_mem _ hd)

/-- Where the loop stops is in the middle of a request. -/
theorem unfinished_of_nextPacket {buf : List UInt8} {later : List RequestFrame}
    (hbuf : buf <+: stream RequestFrame.bytes later) (h : nextPacket buf = none) :
    Unfinished RequestFrame.bytes buf later := by
  cases later with
  | nil => exact List.prefix_nil.mp hbuf
  | cons f later =>
    rw [stream_cons] at hbuf
    have hlt : buf.length < f.bytes.length := by
      by_contra hge
      obtain ⟨rest, rfl⟩ := List.prefix_of_prefix_length_le (List.prefix_append _ _) hbuf (not_lt.mp hge)
      rw [nextPacket_whole] at h
      cases h
    exact ⟨List.prefix_of_prefix_length_le hbuf (List.prefix_append _ _) hlt.le, hlt⟩

/-- A packet that the loop takes is the next request. -/
theorem next_request {buf rest : List UInt8} {p : Packet} {later : List RequestFrame}
    (hbuf : buf <+: stream RequestFrame.bytes later) (h : nextPacket buf = some (p, rest)) :
    ∃ f later', later = f :: later' ∧ p = f.packet ∧ buf = f.bytes ++ rest := by
  cases later with
  | nil =>
    rw [List.prefix_nil.mp hbuf] at h
    cases h
  | cons f later =>
    rw [stream_cons] at hbuf
    by_cases hlt : buf.length < f.bytes.length
    · -- it would not be all there
      have hpart := List.prefix_of_prefix_length_le hbuf (List.prefix_append _ _) hlt.le
      rw [nextPacket_part hpart hlt] at h
      cases h
    · obtain ⟨rest', rfl⟩ :=
        List.prefix_of_prefix_length_le (List.prefix_append _ _) hbuf (not_lt.mp hlt)
      rw [nextPacket_whole] at h
      obtain ⟨rfl, rfl⟩ := Prod.mk.inj (Option.some.inj h)
      exact ⟨f, later, rfl, rfl, rfl⟩

theorem serves_new (peerAddress : String) : Serves { peerAddress } [] := by
  intro frames hreceived
  exact ⟨[], frames, rfl, rfl, rfl, unfinished_of_nextPacket hreceived⟩

theorem replied_new (peerAddress : String) : Replied setup c { peerAddress } [] where
  sent := ⟨[], List.prefix_rfl, rfl, fun _ => rfl⟩
  connected := fun _ d hd => absurd hd List.not_mem_nil
  closing := fun h => by cases h

/-- More bytes change nothing about what was served. -/
theorem Serves.receive {done : List Dispatched} (h : Serves conn done) (chunk : List UInt8) :
    Serves (conn.receive chunk) done := by
  unfold Connection.receive
  split
  · intro frames hreceived
    have hbefore : conn.received <+: stream RequestFrame.bytes frames :=
      (List.prefix_append _ _).trans hreceived
    obtain ⟨now, later, rfl, hsplit, hpackets, -⟩ := h frames hbefore
    have hsplit' : conn.received ++ chunk =
        stream RequestFrame.bytes now ++ (conn.readBuf ++ chunk) := by
      rw [hsplit, List.append_assoc]
    refine ⟨now, later, rfl, hsplit', hpackets, ?_⟩
    simp only at hreceived
    rw [hsplit', stream_append] at hreceived
    exact unfinished_of_nextPacket ((List.prefix_append_right_inj _).mp hreceived)
  · exact h

theorem Replied.receive {done : List Dispatched} (h : Replied setup c conn done) (chunk : List UInt8) :
    Replied setup c (conn.receive chunk) done := by
  unfold Connection.receive
  split
  · rename_i hopen
    exact ⟨h.sent, h.connected, fun hclosing => by cases hopen.symm.trans hclosing⟩
  · exact h

/-- **A round of the loop** serves the next request. -/
theorem Serves.process {done : List Dispatched} (h : Serves conn done) {d : Dispatched}
    {readBuf : List UInt8} (hnext : nextPacket conn.readBuf = some (d.packet, readBuf))
    (session : ClientSession) (result : ErrorType) (reply : List UInt8) :
    Serves (conn.answer session readBuf result reply) (done ++ [d]) := by
  obtain ⟨hbuf', hreceived'⟩ : (conn.answer session readBuf result reply).readBuf = readBuf ∧
      (conn.answer session readBuf result reply).received = conn.received := by
    unfold Connection.answer
    split <;> exact ⟨rfl, rfl⟩
  intro frames hreceived
  rw [hreceived'] at hreceived ⊢
  rw [hbuf']
  obtain ⟨now, later, rfl, hsplit, hpackets, -⟩ := h frames hreceived
  rw [hsplit, stream_append] at hreceived
  have hbuf := (List.prefix_append_right_inj _).mp hreceived
  obtain ⟨f, later, rfl, hpacket, hcut⟩ := next_request hbuf hnext
  refine ⟨now ++ [f], later, ?_, ?_, ?_, ?_⟩
  · rw [List.append_cons]
  · rw [hsplit, hcut, stream_append, stream_cons, stream_nil, List.append_nil, List.append_assoc]
  · rw [List.map_append, List.map_append, hpackets, List.map_singleton, List.map_singleton, hpacket]
  · rw [hcut, stream_cons] at hbuf
    exact unfinished_of_nextPacket ((List.prefix_append_right_inj _).mp hbuf)

/-- On a connection that is not open an answer changes neither what was sent nor the socket. -/
theorem Connection.answer_closed (h : conn.socket ≠ .connected) (session : ClientSession)
    (readBuf : List UInt8) (result : ErrorType) (reply : List UInt8) :
    (conn.answer session readBuf result reply).sent = conn.sent ∧
      (conn.answer session readBuf result reply).socket = conn.socket := by
  unfold Connection.answer
  split <;> simp [Connection.sendPacket, Connection.disconnectFromHost, h]

/-- On an open connection an answer is sent, and closes it if it is `Malformed`. -/
theorem Connection.answer_open (h : conn.socket = .connected) (session : ClientSession)
    (readBuf : List UInt8) (result : ErrorType) (reply : List UInt8) :
    (conn.answer session readBuf result reply).sent = conn.sent ++ [reply] ∧
      (conn.answer session readBuf result reply).socket =
        if result = .malformed then .closing else .connected := by
  unfold Connection.answer
  split <;> simp [Connection.sendPacket, Connection.disconnectFromHost, h]

/-- An open connection sends the reply. -/
theorem Replied.answer_open {done : List Dispatched} (h : Replied setup c conn done)
    (hsocket : conn.socket = .connected) (session : ClientSession) (readBuf : List UInt8)
    (d : Dispatched) :
    Replied setup c (conn.answer session readBuf (d.result setup c).2.1 (d.reply setup c))
      (done ++ [d]) := by
  obtain ⟨answered, -, hsent, hall⟩ := h.sent
  have hnone := h.connected hsocket
  have hdone := (hall (by simp [hsocket])).trans (untilMalformed_of_none hnone)
  obtain ⟨hsent', hsocket'⟩ :=
    conn.answer_open hsocket session readBuf (d.result setup c).2.1 (d.reply setup c)
  refine ⟨⟨done ++ [d], ?_, ?_, fun _ => ?_⟩, fun hopen => ?_, fun hclosing => ?_⟩
  · exact (untilMalformed_append hnone d).symm ▸ List.prefix_rfl
  · rw [hsent', hsent, hdone, List.map_append, List.cons_append, List.map_singleton]
  · rw [untilMalformed_append hnone]
  · -- it stays open only if the answer is not `Malformed`
    have hd : (d.result setup c).2.1 ≠ .malformed := by
      intro hmal
      rw [hsocket', if_pos hmal] at hopen
      cases hopen
    intro d' hd'
    rcases List.mem_append.mp hd' with hold | hnew
    · exact hnone d' hold
    · rwa [List.mem_singleton.mp hnew]
  · have hd : (d.result setup c).2.1 = .malformed := by
      by_contra hmal
      rw [hsocket', if_neg hmal] at hclosing
      cases hclosing
    exact Or.inl ⟨d, List.mem_append_right _ (List.mem_singleton_self d), hd⟩

/-- **A round of the loop** answers the request, if the connection is open. -/
theorem Replied.process {done : List Dispatched} (h : Replied setup c conn done) {d : Dispatched}
    {readBuf : List UInt8} (hnext : nextPacket conn.readBuf = some (d.packet, readBuf))
    (session : ClientSession) :
    Replied setup c (conn.answer session readBuf (d.result setup c).2.1 (d.reply setup c))
      (done ++ [d]) := by
  by_cases hopen : conn.socket = .connected
  · exact h.answer_open hopen session readBuf d
  obtain ⟨answered, hinitial, hsent, hall⟩ := h.sent
  obtain ⟨hsent', hsocket'⟩ :=
    conn.answer_closed hopen session readBuf (d.result setup c).2.1 (d.reply setup c)
  -- the loop goes on after an answer that has closed the connection, not after an exit
  have hmal : conn.socket = .closing → ∃ d ∈ done, (d.result setup c).2.1 = .malformed := by
    intro hclosing
    refine (h.closing hclosing).resolve_right fun hnone => ?_
    cases hnone.symm.trans hnext
  refine ⟨⟨answered, hinitial.trans (untilMalformed_mono done [d]), hsent'.trans hsent, fun hne => ?_⟩,
    fun hopen' => absurd (hsocket'.symm.trans hopen') hopen, fun hclosing => ?_⟩
  · rw [hsocket'] at hne
    have hclosing : conn.socket = .closing := by
      cases hsocket : conn.socket <;> simp_all
    rw [untilMalformed_closed (hmal hclosing), hall hne]
  · obtain ⟨d', hd', hd⟩ := hmal (hsocket'.symm.trans hclosing)
    exact Or.inl ⟨d', List.mem_append_left _ hd', hd⟩

/-- What was replied is right also where the loop is left with no packet whole. -/
theorem Replied.exit {done : List Dispatched} (h : Replied setup c conn done)
    (hnone : nextPacket conn.readBuf = none) : Replied setup c conn.disconnectFromHost done where
  sent := by
    obtain ⟨answered, hinitial, hsent, hall⟩ := h.sent
    exact ⟨answered, hinitial, hsent, fun hne => hall (mt Connection.disconnectFromHost_gone.mpr hne)⟩
  connected hopen := by
    cases hsocket : conn.socket <;>
      simp [Connection.disconnectFromHost, hsocket] at hopen
  closing _ := Or.inr hnone

theorem Replied.disconnect {done : List Dispatched} (h : Replied setup c conn done)
    (session : ClientSession) : Replied setup c (conn.disconnected session) done where
  sent := by
    obtain ⟨answered, hinitial, hsent, -⟩ := h.sent
    exact ⟨answered, hinitial, hsent, fun hne => absurd rfl hne⟩
  connected hopen := by cases hopen
  closing hclosing := by cases hclosing

/-- What was answered are the first requests. -/
theorem answered_packets {done answered : List Dispatched} {now : List RequestFrame}
    (hinitial : answered <+: untilMalformed setup c done)
    (hpackets : done.map (·.packet) = now.map RequestFrame.packet) :
    answered.map (·.packet) = (now.take answered.length).map RequestFrame.packet := by
  obtain ⟨more, rfl⟩ := hinitial.trans (untilMalformed_initial done)
  rw [List.map_take, ← hpackets, List.map_append, List.take_left' (List.length_map _)]

/-- The connection serves, if it is there; it has done nothing before it comes. -/
structure ConnServes (setup : NetworkSetup) (c : ConnId) (w : ShadNetServer) (done : List Dispatched) :
    Prop where
  serves : ∀ conn, w.conns.get? c = some conn → Serves conn done ∧ Replied setup c conn done
  fresh : w.nextConn ≤ c → w.conns.get? c = none ∧ done = []

/-- What happens on other connections. -/
theorem ConnServes.other {w' : ShadNetServer} {done : List Dispatched} (h : ConnServes setup c w done)
    (hc : w'.conns.get? c = w.conns.get? c) (hnext : w'.nextConn = w.nextConn) :
    ConnServes setup c w' done := by
  refine ⟨fun conn hconn => h.serves conn (hc.symm.trans hconn), fun hle => ?_⟩
  obtain ⟨hnone, hdone⟩ := h.fresh (hnext ▸ hle)
  exact ⟨hc.trans hnone, hdone⟩

/-- What happens on the connection itself. -/
theorem ConnServes.own {w' : ShadNetServer} {done done' : List Dispatched} {old : Connection}
    (h : ConnServes setup c w done) (hold : w.conns.get? c = some old)
    (hc : w'.conns.get? c = some conn) (hnext : w'.nextConn = w.nextConn)
    (hserves : Serves conn done') (hreplied : Replied setup c conn done') :
    ConnServes setup c w' done' := by
  refine ⟨fun conn' hconn => ?_, fun hle => ?_⟩
  · obtain rfl := Option.some.inj (hc.symm.trans hconn)
    exact ⟨hserves, hreplied⟩
  · cases hold.symm.trans (h.fresh (hnext ▸ hle)).1

/-- A new connection serves from its start. -/
theorem connect_serves {done : List Dispatched} (h : ConnServes setup c w done) (peerAddress : String) :
    ConnServes setup c (w.step setup (.connect peerAddress)) done := by
  refine ⟨fun conn hc => ?_, fun hle => ?_⟩
  · rcases Table.of_get?_set hc with ⟨rfl, rfl⟩ | ⟨-, hold⟩
    · obtain ⟨-, rfl⟩ := h.fresh le_rfl
      exact ⟨serves_new peerAddress, replied_new peerAddress⟩
    · exact h.serves conn hold
  · have hlt : w.nextConn < c := hle
    have hne : (w.step setup (.connect peerAddress)).conns.get? c = w.conns.get? c :=
      Table.get?_set_ne (Nat.ne_of_gt hlt)
    rw [hne]
    exact h.fresh hlt.le

/-- Bytes that arrive wait on their connection. -/
theorem receive_serves {done : List Dispatched} (h : ConnServes setup c w done) (c' : ConnId)
    (chunk : List UInt8) : ConnServes setup c (w.step setup (.receive c' chunk)) done := by
  simp only [ShadNetServer.step]
  cases hold : w.conns.get? c' with
  | none =>
    rw [Table.modify_of_none hold]
    exact h
  | some old =>
    rw [Table.modify_of_some hold]
    by_cases hc' : c' = c
    · subst hc'
      obtain ⟨hserves, hreplied⟩ := h.serves old hold
      exact h.own hold Table.get?_set_self rfl (hserves.receive chunk) (hreplied.receive chunk)
    · exact h.other (Table.get?_set_ne (Ne.symm hc')) rfl

/-- A round of the packet loop serves what it takes off, and nothing on other connections. -/
theorem process_serves {done : List Dispatched} (h : ConnServes setup c w done) (c' : ConnId)
    (env : DispatchEnv) : ConnServes setup c (w.step setup (.process c' env))
      (done ++ w.dispatches c (.process c' env)) := by
  simp only [ShadNetServer.dispatches, ShadNetServer.step]
  by_cases hc' : c' = c
  · subst hc'
    rw [if_pos rfl]
    cases hold : w.conns.get? c' with
    | none =>
      rw [List.append_nil]
      exact h
    | some old =>
      simp only
      obtain ⟨hserves, hreplied⟩ := h.serves old hold
      cases hiter : iteration old.readBuf with
      | exit e =>
        have hnone : nextPacket old.readBuf = none := by
          unfold nextPacket
          rw [hiter]
        simp only [List.append_nil]
        split
        · exact h.own hold Table.get?_set_self rfl hserves (hreplied.exit hnone)
        · exact h
      | packet p readBuf =>
        have hnext : nextPacket old.readBuf = some (p, readBuf) := by
          unfold nextPacket
          rw [hiter]
        let d : Dispatched := ⟨w.dispatchEnv old env, w.dispatchState old, p⟩
        exact h.own hold Table.get?_set_self rfl (hserves.process (d := d) hnext _ _ _)
          (hreplied.process (d := d) hnext _)
  · rw [if_neg hc', List.append_nil]
    cases hold : w.conns.get? c' with
    | none => exact h
    | some old =>
      simp only
      cases iteration old.readBuf with
      | exit e =>
        simp only
        split
        · exact h.other (Table.get?_set_ne (Ne.symm hc')) rfl
        · exact h
      | packet p readBuf => exact h.other (Table.get?_set_ne (Ne.symm hc')) rfl

/-- A connection that goes leaves what it has served. -/
theorem disconnect_serves {done : List Dispatched} (h : ConnServes setup c w done) (c' : ConnId)
    (env : Env) : ConnServes setup c (w.step setup (.disconnect c' env)) done := by
  simp only [ShadNetServer.step]
  cases hold : w.conns.get? c' with
  | none => exact h
  | some old =>
    simp only
    split
    · exact h
    · by_cases hc' : c' = c
      · subst hc'
        obtain ⟨hserves, hreplied⟩ := h.serves old hold
        exact h.own hold Table.get?_set_self rfl hserves (hreplied.disconnect _)
      · exact h.other (Table.get?_set_ne (Ne.symm hc')) rfl

/-- **An event** serves what it takes off the buffer of the connection. -/
theorem step_serves {done : List Dispatched} (h : ConnServes setup c w done) (e : NetworkEvent) :
    ConnServes setup c (w.step setup e) (done ++ w.dispatches c e) := by
  cases e with
  | process c' env => exact process_serves h c' env
  | connect peerAddress =>
    simp only [ShadNetServer.dispatches, List.append_nil]
    exact connect_serves h peerAddress
  | receive c' chunk =>
    simp only [ShadNetServer.dispatches, List.append_nil]
    exact receive_serves h c' chunk
  | datagram raw sender senderPort =>
    simp only [ShadNetServer.dispatches, List.append_nil]
    exact h.other rfl rfl
  | disconnect c' env =>
    simp only [ShadNetServer.dispatches, List.append_nil]
    exact disconnect_serves h c' env

/-- **Requests are served once and in order** on every connection of a run, whatever happens on the
others in between, and each is answered until one of the answers is `Malformed` or the connection
goes. -/
theorem serves (setup : NetworkSetup) (start : ServerStart) (events : List NetworkEvent) (n : ℕ)
    {c : ConnId} {conn : Connection}
    (hc : (networkAfter setup start events n).conns.get? c = some conn) :
    Serves conn (dispatched setup start events c n) ∧
      Replied setup c conn (dispatched setup start events c n) := by
  have h0 : ConnServes setup c start.server [] := by
    refine ⟨fun conn hc => ?_, fun _ => ⟨rfl, rfl⟩⟩
    cases hc
  exact (answers_inv h0 (fun w done e h => step_serves h e) events n).serves conn hc

/-! ### A small server -/

/-- A server whose replies have nothing behind their error. -/
def NetworkSetup.plain : NetworkSetup := { ServerSetup.plain with encodeReply := fun _ => .empty }

/-- A start on two accounts, without scores. -/
def ServerStart.plain : ServerStart where
  db := aliceAndBob
  scores := ⟨⟨⟨∅, []⟩, ∅⟩, {}⟩

end ShadNet
