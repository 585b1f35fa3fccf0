import Mathlib.Tactic.Linarith

/-!
# Packets and reply codes
-/

namespace ShadNet

/-- Type, command, length and packet id have 15 bytes. -/
def headerSize : ℕ := 15

/-- A packet has at most 8 MiB. -/
def maxPacketSize : ℕ := 0x800000

/-- The kinds of packets. -/
inductive PacketType where
  | request
  | reply
  | notification
  | serverInfo
deriving DecidableEq, Repr

/-- Their numbers, as in `protocol.h`. -/
def PacketType.code : PacketType → UInt8
  | .request => 0
  | .reply => 1
  | .notification => 2
  | .serverInfo => 3

/-- The error byte of a reply. -/
inductive ErrorType where
  | noError
  | malformed
  | invalid
  | invalidInput
  | tooSoon
  | loginError
  | loginAlreadyLoggedIn
  | loginInvalidUsername
  | loginInvalidPassword
  | loginInvalidToken
  | creationError
  | creationExistingUsername
  | creationBannedEmailProvider
  | creationExistingEmail
  | roomMissing
  | roomAlreadyJoined
  | roomFull
  | roomPasswordMismatch
  | roomPasswordMissing
  | roomGroupNoJoinLabel
  | roomGroupFull
  | roomGroupJoinLabelNotFound
  | roomGroupMaxSlotMismatch
  | unauthorized
  | dbFail
  | emailFail
  | notFound
  | blocked
  | alreadyFriend
  | scoreNotBest
  | scoreInvalid
  | scoreHasData
  | condFail
  | unsupported
deriving DecidableEq, Repr

end ShadNet
