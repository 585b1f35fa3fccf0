import ShadNet.Proof.ReadLoop
import ShadNet.Spec.PacketReader

/-!
# Requests and replies of a connection

* `header_packet`: the header of a packet is read back.
* `requestFrame_cuts`: the loop takes exactly whole requests off its buffer.
* `frames_processed`: however the bytes of requests are cut into chunks, `ProcessPacket` is called
  for each of them once and in order, and each call sends one reply to it.
-/

namespace ShadNet

open Lib

/-! ## Headers -/

@[simp] theorem length_toLe (width n : ℕ) : (toLe width n).length = width := by
  induction width generalizing n with
  | zero => rfl
  | succ width ih => rw [toLe, List.length_cons, ih]

/-- A number in little endian is read back, up to its width. -/
theorem fromLe_toLe (width n : ℕ) : fromLe (toLe width n) = n % 256 ^ width := by
  induction width generalizing n with
  | zero => simp [toLe, fromLe, Nat.mod_one]
  | succ width ih =>
    have hbyte : (UInt8.ofNat (n % 256)).toNat = n % 256 := by
      rw [UInt8.toNat_ofNat']
      omega
    rw [toLe, fromLe, ih, hbyte, pow_succ', Nat.mod_mul]

/-- **A header is read back**, each field up to its width. -/
theorem header_packet (type : UInt8) (command size packetId : ℕ) (more : List UInt8) :
    header ([type] ++ toLe 2 command ++ toLe 4 size ++ toLe 8 packetId ++ more) =
      ⟨type, command % 2 ^ 16, size % 2 ^ 32, packetId % 2 ^ 64⟩ := by
  have hcommand := fromLe_toLe 2 command
  have hsize := fromLe_toLe 4 size
  have hid := fromLe_toLe 8 packetId
  unfold header
  simp only [toLe, List.cons_append, List.nil_append, List.drop_succ_cons, List.drop_zero,
    List.take_succ_cons, List.take_zero, List.headD_cons] at hcommand hsize hid ⊢
  rw [hcommand, hsize, hid]
  norm_num

/-- The header does not depend on what stands behind it. -/
theorem header_append {buf : List UInt8} (h : headerSize ≤ buf.length) (more : List UInt8) :
    header (buf ++ more) = header buf := by
  unfold headerSize at h
  obtain ⟨b, buf', rfl⟩ := List.exists_cons_of_length_pos (show 0 < buf.length by omega)
  rw [List.length_cons] at h
  unfold header
  have hfield : ∀ i width, i + width ≤ buf'.length + 1 →
      (((b :: buf') ++ more).drop i).take width = ((b :: buf').drop i).take width := by
    intro i width hi
    rw [List.drop_append_of_le_length (by rw [List.length_cons]; omega),
      List.take_append_of_le_length (by rw [List.length_drop, List.length_cons]; omega)]
  rw [hfield 1 2 (by omega), hfield 3 4 (by omega), hfield 7 8 (by omega)]
  rfl

/-! ## Requests -/

/-- The packet at the front of a buffer, if it is all there and acceptable. -/
def nextPacket (buf : List UInt8) : Option (Packet × List UInt8) :=
  match iteration buf with
  | .exit _ => none
  | .packet p readBuf => some (p, readBuf)

variable {f : RequestFrame} {buf : List UInt8}

@[simp] theorem RequestFrame.length_bytes (f : RequestFrame) :
    f.bytes.length = headerSize + f.payload.length := by
  simp only [RequestFrame.bytes, List.length_append, length_toLe, List.length_singleton]
  rfl

theorem RequestFrame.header_bytes (f : RequestFrame) (more : List UInt8) :
    header (f.bytes ++ more) = ⟨PacketType.request.code, f.command.toNat,
      headerSize + f.payload.length, f.packetId.toNat⟩ := by
  have hsize : headerSize + f.payload.length < 2 ^ 32 :=
    lt_of_le_of_lt f.size_le (by decide)
  rw [RequestFrame.bytes, List.append_assoc, header_packet, Nat.mod_eq_of_lt f.command.toNat_lt,
    Nat.mod_eq_of_lt hsize, Nat.mod_eq_of_lt f.packetId.toNat_lt]

/-- A packet that has arrived whole is taken off the buffer. -/
theorem nextPacket_whole (f : RequestFrame) (rest : List UInt8) :
    nextPacket (f.bytes ++ rest) = some (f.packet, rest) := by
  have hheader := f.header_bytes rest
  have hmax := f.size_le
  have hsub : subU32 (headerSize + f.payload.length) headerSize = f.payload.length := by
    have hlt : maxPacketSize < 2 ^ 32 := by decide
    unfold subU32
    omega
  have hpayload : (f.bytes ++ rest).drop headerSize = f.payload ++ rest := by
    simp only [RequestFrame.bytes, toLe]
    rfl
  have hlength : (f.bytes ++ rest).length = headerSize + f.payload.length + rest.length := by
    rw [List.length_append, f.length_bytes]
  have hiter : iteration (f.bytes ++ rest) = .packet f.packet rest := by
    unfold iteration
    rw [hheader, hlength, if_neg (by omega), if_neg (by simp), if_neg (by simpa using hmax),
      if_neg (by simp only; omega), hpayload]
    simp only [hsub, List.take_left]
    rw [List.drop_left' f.length_bytes]
    rfl
  unfold nextPacket
  rw [hiter]

/-- A packet that has not arrived whole is not taken off. -/
theorem nextPacket_part (hpart : buf <+: f.bytes) (hlt : buf.length < f.bytes.length) :
    nextPacket buf = none := by
  have hiter : ∃ e, iteration buf = .exit e := by
    unfold iteration
    by_cases hshort : buf.length < headerSize
    · exact ⟨.noHeader, if_pos hshort⟩
    · -- the header is there, and announces more than has arrived
      obtain ⟨more, hmore⟩ := hpart
      have hheader : header buf = ⟨PacketType.request.code, f.command.toNat,
          headerSize + f.payload.length, f.packetId.toNat⟩ := by
        rw [← header_append (not_lt.mp hshort) more, hmore, ← List.append_nil f.bytes,
          f.header_bytes]
      have hmax := f.size_le
      rw [f.length_bytes] at hlt
      rw [if_neg hshort, hheader, if_neg (by simp), if_neg (by simpa using hmax), if_pos hlt]
      exact ⟨.notEnoughData, rfl⟩
  obtain ⟨e, he⟩ := hiter
  unfold nextPacket
  rw [he]

/-- **The loop takes whole requests off.** -/
theorem requestFrame_cuts : Cuts RequestFrame.bytes nextPacket RequestFrame.packet where
  whole := nextPacket_whole
  part _ _ := nextPacket_part
  empty := rfl

/-! ## Replies -/

theorem replyTo_eq (p : Packet) (result : ErrorType) (body : ReplyBody) :
    replyTo p result body = [PacketType.reply.code] ++ toLe 2 p.command ++
      toLe 4 (headerSize + 1 + body.bytes.length) ++ toLe 8 p.packetId ++
      (result.code :: body.bytes) := by
  have hset : ([PacketType.reply.code] ++ toLe 2 p.command ++ toLe 4 headerSize ++
      toLe 8 p.packetId ++ [ErrorType.noError.code] ++ body.bytes).set headerSize result.code =
      [PacketType.reply.code] ++ toLe 2 p.command ++ toLe 4 headerSize ++ toLe 8 p.packetId ++
        (result.code :: body.bytes) := by
    simp only [toLe]
    rfl
  have hlength : ([PacketType.reply.code] ++ toLe 2 p.command ++ toLe 4 headerSize ++
      toLe 8 p.packetId ++ (result.code :: body.bytes)).length =
      headerSize + 1 + body.bytes.length := by
    simp only [List.length_append, length_toLe, List.length_cons, List.length_nil]
    unfold headerSize
    omega
  unfold replyTo
  simp only
  rw [hset, fixPacketSize, hlength]
  simp only [toLe]
  rfl

/-- What an answer has to say of its request: it is a reply, names its own size, and echoes command
and id. -/
def Answers (f : RequestFrame) (reply : List UInt8) : Prop :=
  header reply = ⟨PacketType.reply.code, f.command.toNat, reply.length, f.packetId.toNat⟩

theorem ReplyBody.length_lt (body : ReplyBody) : headerSize + 1 + body.bytes.length < 2 ^ 32 := by
  unfold headerSize
  cases body with
  | empty => simp [ReplyBody.bytes]
  | u32 v => simp [ReplyBody.bytes]
  | blob b =>
    have hlt := b.property
    simp only [ReplyBody.bytes, List.length_append, length_toLe]
    omega

/-- A reply has type, command and id that answer its request. -/
theorem replyTo_answers (f : RequestFrame) (result : ErrorType) (body : ReplyBody) :
    Answers f (replyTo f.packet result body) := by
  unfold Answers
  rw [replyTo_eq, header_packet]
  have hlength : ([PacketType.reply.code] ++ toLe 2 f.packet.command ++
      toLe 4 (headerSize + 1 + body.bytes.length) ++ toLe 8 f.packet.packetId ++
      (result.code :: body.bytes)).length = headerSize + 1 + body.bytes.length := by
    simp only [List.length_append, length_toLe, List.length_cons, List.length_nil]
    unfold headerSize
    omega
  rw [hlength, Nat.mod_eq_of_lt body.length_lt]
  simp only [RequestFrame.packet]
  rw [Nat.mod_eq_of_lt f.command.toNat_lt, Nat.mod_eq_of_lt f.packetId.toNat_lt]

/-! ## The loop -/

variable {σ : Type} {dispatch : Dispatch σ} {r : Reader σ}

/-- The packets dispatched one after another. -/
def processAll (dispatch : Dispatch σ) (r : Reader σ) (ps : List Packet) : Reader σ :=
  ps.foldl (processPacket dispatch) r

/-- `ProcessPacket` does not look at the buffer. -/
theorem processAll_readBuf (r : Reader σ) (readBuf : List UInt8) (ps : List Packet) :
    processAll dispatch { r with readBuf } ps = { processAll dispatch r ps with readBuf } := by
  unfold processAll
  induction ps generalizing r with
  | nil => rfl
  | cons p ps ih => exact ih (processPacket dispatch r p)

/-- The loop drains the buffer, and processes what it takes off. -/
theorem readLoop_eq (dispatch : Dispatch σ) (fuel : ℕ) (r : Reader σ) :
    readLoop dispatch fuel r = (drain nextPacket fuel r.readBuf).map fun d =>
      processAll dispatch { r with readBuf := d.2 } d.1 := by
  induction fuel generalizing r with
  | zero => rfl
  | succ fuel ih =>
    unfold readLoop drain nextPacket
    cases iteration r.readBuf with
    | exit e => rfl
    | packet p readBuf =>
      simp only
      rw [ih, Option.map_map]
      rfl

/-- The reader processes what the framing cuts off. -/
theorem readChunks_eq (dispatch : Dispatch σ) (fuel : ℕ) (r : Reader σ) (chunks : List (List UInt8)) :
    readChunks dispatch fuel r chunks = (feed nextPacket fuel r.readBuf chunks).map fun d =>
      processAll dispatch { r with readBuf := d.2 } d.1 := by
  induction chunks generalizing r with
  | nil => rfl
  | cons chunk chunks ih =>
    simp only [readChunks, onReadyRead, feed]
    rw [readLoop_eq]
    cases drain nextPacket fuel (r.readBuf ++ chunk) with
    | none => rfl
    | some d =>
      simp only [Option.map_some, Option.bind_some]
      rw [processAll_readBuf, ih, Option.map_map]
      refine congrArg (Option.map · _) (funext fun d' => ?_)
      -- the buffer in between is forgotten
      simp only [Function.comp_apply]
      rw [processAll_readBuf _ d'.2, processAll_readBuf r d'.2]
      simp only [processAll, List.foldl_append]

/-- What calls on requests leave: the calls themselves, and an answer to each. -/
theorem processAll_requests (dispatch : Dispatch σ) (r : Reader σ) (fs : List RequestFrame) :
    let r' := processAll dispatch r (fs.map RequestFrame.packet)
    r'.readBuf = r.readBuf ∧ r'.calls = r.calls ++ fs.map RequestFrame.packet ∧
      ∃ replies, r'.sent = r.sent ++ replies ∧ List.Forall₂ Answers fs replies := by
  induction fs generalizing r with
  | nil => exact ⟨rfl, (List.append_nil _).symm, [], (List.append_nil _).symm, .nil⟩
  | cons f fs ih =>
    obtain ⟨hbuf, hcalls, replies, hsent, hanswers⟩ := ih (processPacket dispatch r f.packet)
    have hone := replyTo_answers f (dispatch r.state f.packet).2.1 (dispatch r.state f.packet).2.2
    refine ⟨hbuf, ?_, _ :: replies, ?_, .cons hone hanswers⟩
    · rw [List.map_cons, List.append_cons]
      exact hcalls
    · rw [List.append_cons]
      exact hsent

theorem RequestFrame.bytes_ne_nil (f : RequestFrame) : f.bytes ≠ [] := by
  refine List.ne_nil_of_length_pos ?_
  rw [f.length_bytes]
  exact Nat.lt_add_right _ (by decide)

/-- **Requests in chunks.** Let the bytes of requests, or a prefix of them, arrive. However they are
cut into chunks, `ProcessPacket` is called for every request that is all there, once and in order,
the buffer holds what has come of the next one, and each call sends one reply, which names its own
size and echoes command and id. -/
theorem frames_processed (dispatch : Dispatch σ) (state : σ) (frames : List RequestFrame)
    (received : List UInt8) (hreceived : received <+: stream RequestFrame.bytes frames) :
    ∃ now later r, frames = now ++ later ∧
      received = stream RequestFrame.bytes now ++ r.readBuf ∧
      Unfinished RequestFrame.bytes r.readBuf later ∧
      (received = stream RequestFrame.bytes frames → later = []) ∧
      r.calls = now.map RequestFrame.packet ∧ List.Forall₂ Answers now r.sent ∧
      ∀ chunks fuel, chunks.flatten = received → frames.length < fuel →
        readChunks dispatch fuel { state } chunks = some r := by
  obtain ⟨now, later, tail, rfl, hsplit, htail⟩ := exists_split hreceived
  obtain ⟨hbuf, hcalls, replies, hsent, hanswers⟩ :=
    processAll_requests dispatch { readBuf := tail, state } now
  simp only [List.nil_append] at hcalls hsent
  refine ⟨now, later, _, rfl, ?_, ?_, fun hall => ?_, hcalls, ?_, fun chunks fuel hcut hfuel => ?_⟩
  · rw [hsplit, hbuf]
  · rw [hbuf]
    exact htail
  · rw [hsplit, stream_append] at hall
    exact htail.eq_nil (List.append_cancel_left hall)
  · rw [hsent]
    exact hanswers
  · have hempty := unfinished_nil RequestFrame.bytes_ne_nil (now ++ later)
    have hfeed : feed nextPacket fuel [] chunks = some (now.map RequestFrame.packet, tail) := by
      rw [feed_chunks requestFrame_cuts hempty chunks (by rwa [List.nil_append, hcut]) hfuel,
        List.nil_append, hcut, hsplit]
      rw [List.length_append] at hfuel
      exact drain_stream _ requestFrame_cuts htail (by omega)
    rw [readChunks_eq, hfeed]
    rfl

/-- A server that counts its calls and answers with the count. -/
def countCalls : Dispatch ℕ := fun n _ => (n + 1, .noError, .u32 n)

/-- Two requests; the second has a payload. -/
def twoRequests : List RequestFrame :=
  [⟨6, 1, [], by decide⟩, ⟨12, 2, [7, 8], by decide⟩]

/-- The first of two requests is processed when the second has arrived up to its header. -/
theorem first_of_two_processed :
    ∃ now later r, twoRequests = now ++ later ∧
      (stream RequestFrame.bytes twoRequests).take 24 =
        stream RequestFrame.bytes now ++ r.readBuf ∧
      Unfinished RequestFrame.bytes r.readBuf later ∧
      ((stream RequestFrame.bytes twoRequests).take 24 = stream RequestFrame.bytes twoRequests →
        later = []) ∧
      r.calls = now.map RequestFrame.packet ∧ List.Forall₂ Answers now r.sent ∧
      ∀ chunks fuel, chunks.flatten = (stream RequestFrame.bytes twoRequests).take 24 →
        twoRequests.length < fuel → readChunks countCalls fuel ⟨[], 0, [], []⟩ chunks = some r :=
  frames_processed countCalls 0 twoRequests _ (List.take_prefix 24 _)

end ShadNet
