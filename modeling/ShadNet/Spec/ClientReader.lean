import ShadNet.Spec.ShadNetServer

/-!
# The other end

What the server sends besides replies, and how the guest of the repository's tests reads what arrives.
-/

namespace ShadNet

open Lib

/-! ## Notifications -/

/-- The notifications that the server sends to clients. -/
inductive NotificationType where
  | friendQuery
  | friendNew
  | friendLost
  | friendStatus
  | roomEvent
  | roomMessage
  | webApiPushEvent
deriving DecidableEq, Repr

/-- Their numbers, as in `protocol.h`. -/
def NotificationType.code : NotificationType → ℕ
  | .friendQuery => 5
  | .friendNew => 6
  | .friendLost => 7
  | .friendStatus => 8
  | .roomEvent => 10
  | .roomMessage => 11
  | .webApiPushEvent => 17

/-- `BuildNotification`: a header with packet id 0, and the payload behind it. -/
def buildNotification (type : NotificationType) (payload : List UInt8) : List UInt8 :=
  [PacketType.notification.code] ++ toLe 2 type.code ++ toLe 4 (headerSize + payload.length) ++
    toLe 8 0 ++ payload

/-! ## The guest -/

/-- A packet that the sample client has taken out of what it received. -/
structure GuestPacket where
  type : UInt8
  command : ℕ
  id : ℕ
  payload : List UInt8
deriving DecidableEq, Repr

/-- `kMaxPacketSize` of the sample client, 8 MiB. -/
def maxGuestPacket : ℕ := 8 * 1024 * 1024

/-- One packet off the front of a buffer, and what is behind it. Nothing if it is not all there, or has
a size that the reader refuses. -/
def takePacket (refuses : ℕ → Prop) [DecidablePred refuses] (buf : List UInt8) :
    Option (GuestPacket × List UInt8) :=
  if buf.length < headerSize then none
  else
    let h := header buf
    if refuses h.pktSize then none
    else if buf.length < h.pktSize then none
    else some (⟨h.type, h.command, h.pktId, (buf.drop headerSize).take (h.pktSize - headerSize)⟩,
      buf.drop h.pktSize)

/-- `ReceivePacket` on what has arrived. It waits for more, and gives up on a size that makes no
sense. -/
def receivePacket : List UInt8 → Option (GuestPacket × List UInt8) :=
  takePacket fun pktSize => pktSize < headerSize ∨ maxGuestPacket < pktSize

/-- What `Request` waits for among the packets that come in. -/
def awaitReply (id : ℕ) (packets : List GuestPacket) : Option GuestPacket :=
  packets.find? fun p => p.type = PacketType.reply.code ∧ p.id = id

end ShadNet
