import ShadNet.Lib.Loop
import ShadNet.Spec.Protocol
import ShadNet.Spec.StreamExtractor

/-!
# The packet loop

The loop of `OnReadyRead` over the bytes of `m_readBuf`. One iteration takes one of four
exits or cuts a packet off the front of the buffer and hands it to `ProcessPacket`, which
leaves the buffer alone.
-/

namespace ShadNet

open Lib

/-- The header fields that the loop reads. -/
structure Header where
  type : UInt8
  command : ℕ
  pktSize : ℕ
  pktId : ℕ
deriving DecidableEq, Repr

/-- The first `headerSize` bytes of the buffer, little-endian. -/
def header (buf : List UInt8) : Header where
  type := buf.headD 0
  command := fromLe ((buf.drop 1).take 2)
  pktSize := fromLe ((buf.drop 3).take 4)
  pktId := fromLe ((buf.drop 7).take 8)

/-- What `ProcessPacket` is called with. -/
structure Packet where
  command : ℕ
  packetId : ℕ
  payload : List UInt8
deriving DecidableEq, Repr

/-- The ways out of the loop. The last two disconnect. -/
inductive Exit where
  | noHeader
  | notEnoughData
  | unexpectedType
  | oversized
deriving DecidableEq, Repr

/-- An exit of the loop that closes the connection. -/
def Exit.disconnects : Exit → Bool
  | .noHeader => false
  | .notEnoughData => false
  | .unexpectedType => true
  | .oversized => true

/-- What one turn of the loop does: it ends the loop, or takes a packet off the buffer. -/
inductive Iteration where
  | exit (e : Exit)
  | packet (p : Packet) (readBuf : List UInt8)
deriving DecidableEq, Repr

/-- The 32-bit unsigned difference of two numbers. -/
def subU32 (a b : ℕ) : ℕ := (a + 2 ^ 32 - b) % 2 ^ 32

/-- One iteration of the loop. `mid` clips a length that is too long. -/
def iteration (buf : List UInt8) : Iteration :=
  if buf.length < headerSize then .exit .noHeader
  else if (header buf).type ≠ PacketType.request.code then .exit .unexpectedType
  else if maxPacketSize < (header buf).pktSize then .exit .oversized
  else if buf.length < (header buf).pktSize then .exit .notEnoughData
  else
    -- nothing asks whether the size covers the header
    let payload := (buf.drop headerSize).take (subU32 (header buf).pktSize headerSize)
    .packet ⟨(header buf).command, (header buf).pktId, payload⟩ (buf.drop (header buf).pktSize)

/-- The buffer the next iteration starts from. -/
def nextBuf (buf : List UInt8) : Option (List UInt8) :=
  match iteration buf with
  | .exit _ => none
  | .packet _ readBuf => some readBuf

end ShadNet
