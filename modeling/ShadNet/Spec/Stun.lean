import ShadNet.Lib.Utf8
import ShadNet.Spec.PacketBuilder

/-!
# The STUN server

Clients send pings over UDP, and the server notes for each npid the address and the port that its last
ping came from, and tells them to the sender. A datagram of the signaling has a header of two virtual
ports.
-/

namespace ShadNet

open Lib

/-! ## Addresses -/

/-- How Qt writes an IPv4 address that is mapped into IPv6. -/
def ipv4MappedPrefix : String := "::ffff:"

/-- Where a datagram comes from. -/
inductive HostAddress where
  | ipv4 (addr : UInt32)
  /-- an IPv4 address as a socket for both protocols tells it -/
  | ipv4Mapped (addr : UInt32)
  /-- any other, by its text -/
  | ipv6 (text : String) (written : text ≠ "" ∧ text ≠ ipv4MappedPrefix)
deriving DecidableEq, Repr

/-- The bytes of a number, most significant first. -/
def toBe (width n : ℕ) : List UInt8 := (toLe width n).reverse

/-- Four numbers with dots between them. -/
def dottedQuad (addr : ℕ) : String :=
  String.ofList (['.'].intercalate ((toBe 4 addr).map fun b => (toString b.toNat).toList))

namespace HostAddress

/-- `QHostAddress::toString`. -/
def toString : HostAddress → String
  | .ipv4 addr => dottedQuad addr.toNat
  | .ipv4Mapped addr => ipv4MappedPrefix ++ dottedQuad addr.toNat
  | .ipv6 text _ => text

end HostAddress

/-- `toIPv4Address` of a text: four numbers below 256. Other spellings of IPv4 addresses do not occur,
and any other text has no such address. -/
def toIPv4Address (text : String) : ℕ :=
  match (text.toList.splitOn '.').map digits? with
  | [some a, some b, some c, some d] =>
    if a < 256 ∧ b < 256 ∧ c < 256 ∧ d < 256 then ((a * 256 + b) * 256 + c) * 256 + d else 0
  | _ => 0

/-! ## Datagrams -/

/-- The virtual port of signaling, in network order. -/
def signalingVportNbo : List UInt8 := [0xFF, 0xFF]

/-- Two virtual ports stand before the payload. -/
def vportHeaderSize : ℕ := 4

/-- A datagram between two peers' signaling ports. -/
def frameSignaling (payload : List UInt8) : List UInt8 :=
  signalingVportNbo ++ signalingVportNbo ++ payload

/-- Empty for what is no signaling packet. -/
def stripVportHeader (data : List UInt8) : List UInt8 :=
  if data.length < vportHeaderSize then []
  else if data.take 2 ≠ signalingVportNbo ∨ (data.drop 2).take 2 ≠ signalingVportNbo then []
  else data.drop vportHeaderSize

/-- `QString::fromUtf8`; a byte order mark at the front is dropped. -/
def fromUtf8 (bytes : List UInt8) : String :=
  String.ofList (decodeUtf8 (match bytes with
    | 0xEF :: 0xBB :: 0xBF :: rest => rest
    | _ => bytes))

/-- The `online_id` of a ping, which is padded with zeros. -/
def pingNpid (qt : Qt) (data : List UInt8) : String :=
  qt.trimmed (fromUtf8 (((data.drop 1).take 16).takeWhile (· ≠ 0)))

/-- The sender's address as the table of pings keeps it. -/
def extIp (sender : HostAddress) : String :=
  let text := sender.toString.toList
  String.ofList (if ipv4MappedPrefix.toList.isPrefixOf text then text.drop 7 else text)

/-- The answer to a ping. -/
def stunReply (sender : HostAddress) (senderPort : UInt16) : List UInt8 :=
  frameSignaling (toBe 4 (toIPv4Address (extIp sender)) ++ toBe 2 senderPort.toNat)

/-- The table of pings after a datagram, with the answer if there is one. -/
def handleStunPing (qt : Qt) (udpExt : Table String (String × ℕ)) (data : List UInt8)
    (sender : HostAddress) (senderPort : UInt16) :
    Table String (String × ℕ) × Option (List UInt8) :=
  if data.length < 21 then (udpExt, none)
  else
    let npid := pingNpid qt data
    if npid = "" then (udpExt, none)
    else (udpExt.set npid (extIp sender, senderPort.toNat), some (stunReply sender senderPort))

/-- One round of the loop of `StunServer::OnReadyRead`. -/
def onDatagram (qt : Qt) (udpExt : Table String (String × ℕ)) (raw : List UInt8)
    (sender : HostAddress) (senderPort : UInt16) :
    Table String (String × ℕ) × Option (List UInt8) :=
  match stripVportHeader raw with
  | [] => (udpExt, none)
  | cmd :: rest =>
    if cmd = 0x01 then handleStunPing qt udpExt (cmd :: rest) sender senderPort else (udpExt, none)

end ShadNet
