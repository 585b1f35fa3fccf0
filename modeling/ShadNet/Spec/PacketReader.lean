import ShadNet.Lib.Framing
import ShadNet.Spec.ReadLoop

/-!
# Packets of a connection

`OnReadyRead` appends what has arrived to `m_readBuf` and hands every packet that is all there to
`ProcessPacket`, which sends one reply. The handlers of the commands stand behind a parameter.
-/

namespace ShadNet

open Lib

/-- The lowest `width` bytes of a number, least significant first. -/
def toLe : ℕ → ℕ → List UInt8
  | 0, _ => []
  | width + 1, n => UInt8.ofNat (n % 256) :: toLe width (n / 256)

/-- The codes count up from 0. -/
def ErrorType.code (e : ErrorType) : UInt8 := UInt8.ofNat e.ctorIdx

/-! ## Requests -/

/-- A request as a client sends it, of an accepted size. -/
structure RequestFrame where
  command : UInt16
  packetId : UInt64
  payload : List UInt8
  size_le : headerSize + payload.length ≤ maxPacketSize

/-- The header with the length of the whole packet, and the payload. -/
def RequestFrame.bytes (f : RequestFrame) : List UInt8 :=
  [PacketType.request.code] ++ toLe 2 f.command.toNat ++ toLe 4 (headerSize + f.payload.length) ++
    toLe 8 f.packetId.toNat ++ f.payload

/-- What `ProcessPacket` has to be called with. -/
def RequestFrame.packet (f : RequestFrame) : Packet :=
  ⟨f.command.toNat, f.packetId.toNat, f.payload⟩

/-! ## Replies -/

/-- What a handler appends to its reply: nothing, a 32-bit number, or bytes behind their number,
which is an `int`. -/
inductive ReplyBody where
  | empty
  | u32 (v : ℕ)
  | blob (b : { b : List UInt8 // b.length < 2 ^ 31 })

/-- A number in four bytes, or a blob behind its length. -/
def ReplyBody.bytes : ReplyBody → List UInt8
  | .empty => []
  | .u32 v => toLe 4 v
  | .blob b => toLe 4 b.val.length ++ b.val

/-- `DispatchCommand` on a state of the server and the session. -/
abbrev Dispatch (σ : Type) := σ → Packet → σ × ErrorType × ReplyBody

/-- The size of the packet, written where the header has it. -/
def fixPacketSize (buf : List UInt8) : List UInt8 :=
  buf.take 3 ++ toLe 4 buf.length ++ buf.drop 7

/-- A connection: its buffer, and the calls that it has made and what it has sent so far. -/
structure Reader (σ : Type) where
  readBuf : List UInt8 := []
  state : σ
  calls : List Packet := []
  sent : List (List UInt8) := []

variable {σ : Type}

/-- The reply with its error byte, before and after the size is known. -/
def replyTo (p : Packet) (result : ErrorType) (body : ReplyBody) : List UInt8 :=
  let reply := [PacketType.reply.code] ++ toLe 2 p.command ++ toLe 4 headerSize ++
    toLe 8 p.packetId ++ [ErrorType.noError.code] ++ body.bytes
  fixPacketSize (reply.set headerSize result.code)

/-- A packet is dispatched, and its reply is sent with its id. -/
def processPacket (dispatch : Dispatch σ) (r : Reader σ) (p : Packet) : Reader σ :=
  let (state, result, body) := dispatch r.state p
  { r with
    state := state
    calls := r.calls ++ [p]
    sent := r.sent ++ [replyTo p result body] }

/-- The loop, for `fuel` rounds at most. -/
def readLoop (dispatch : Dispatch σ) : ℕ → Reader σ → Option (Reader σ)
  | 0, _ => none
  | fuel + 1, r =>
    match iteration r.readBuf with
    | .exit _ => some r
    | .packet p readBuf => readLoop dispatch fuel (processPacket dispatch { r with readBuf } p)

/-- What has arrived is put behind what is left, and the packets that are whole are processed. -/
def onReadyRead (dispatch : Dispatch σ) (fuel : ℕ) (r : Reader σ) (chunk : List UInt8) :
    Option (Reader σ) :=
  readLoop dispatch fuel { r with readBuf := r.readBuf ++ chunk }

/-- One chunk after another; disconnects are not followed. -/
def readChunks (dispatch : Dispatch σ) (fuel : ℕ) : Reader σ → List (List UInt8) → Option (Reader σ)
  | r, [] => some r
  | r, chunk :: chunks =>
    (onReadyRead dispatch fuel r chunk).bind fun r => readChunks dispatch fuel r chunks

end ShadNet
