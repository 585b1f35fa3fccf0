import ShadNet.Lib.ReadWrite
import ShadNet.Lib.Table
import ShadNet.Spec.Protocol

/-!
# Friends and blocks

The `friendship` table, which has one row for each pair of accounts, and the four commands
that change it. Each reads the pair's row by one statement and writes it by another, which
sets the bytes of both accounts.
-/

namespace ShadNet

open Lib

/-- The bit that says that one side wants the other as a friend. -/
def FriendStatus.friend : UInt8 := 1

/-- The bit that says that one side has blocked the other. -/
def FriendStatus.blocked : UInt8 := 2

open FriendStatus

/-! ## The table -/

/-- `(user_id_1, user_id_2)` to `(status_user_1, status_user_2)`. -/
abbrev Friendship := Table (ℤ × ℤ) (UInt8 × UInt8)

/-- The bits of a row, seen from one of its two accounts. -/
structure RelStatus where
  caller : UInt8
  other : UInt8

/-- What `GetRelStatus` finds: a row, none, or that the query failed. -/
inductive RelResult where
  | ok (rel : RelStatus)
  | empty
  | error

/-- The ids in the order of the table, and whether that swaps them. -/
def orderedIds (a b : ℤ) : ℤ × ℤ × Bool := if a < b then (a, b, false) else (b, a, true)

/-- `exec` says whether the statement runs, here and below. -/
def getRelStatus (t : Friendship) (callerId otherId : ℤ) (exec : Bool) : RelResult :=
  let (id1, id2, swapped) := orderedIds callerId otherId
  if !exec then .error
  else match t.get? (id1, id2) with
    | none => .empty
    | some (s1, s2) => .ok ⟨if swapped then s2 else s1, if swapped then s1 else s2⟩

/-- The row of the two accounts is written, its bits in the order of the ids. -/
def setRelStatus (t : Friendship) (callerId otherId : ℤ) (statusCaller statusOther : UInt8)
    (exec : Bool) : Friendship × Bool :=
  let (id1, id2, swapped) := orderedIds callerId otherId
  let s1 := if swapped then statusOther else statusCaller
  let s2 := if swapped then statusCaller else statusOther
  if exec then (t.set (id1, id2) (s1, s2), true) else (t, false)

/-- The row of the two accounts goes. -/
def deleteRel (t : Friendship) (callerId otherId : ℤ) (exec : Bool) : Friendship × Bool :=
  let (id1, id2, _) := orderedIds callerId otherId
  if exec then (t.del (id1, id2), true) else (t, false)

/-! ## What the commands decide -/

/-- A reply without a write, or what is to be written to the row. -/
inductive RelDecision where
  | reply (e : ErrorType)
  | set (otherId : ℤ) (newCaller newOther : UInt8)
  | delete (otherId : ℤ)
deriving DecidableEq, Repr

/-- Whether the bit is set in the status. -/
def has (status flag : UInt8) : Bool := status &&& flag ≠ 0

/-- `DeleteRel` if nothing is left, else `SetRelStatus`. -/
def setOrDelete (otherId : ℤ) (newCaller newOther : UInt8) : RelDecision :=
  if newCaller = 0 ∧ newOther = 0 then .delete otherId else .set otherId newCaller newOther

/-- `CmdAddFriend` up to its write. A block on either side refuses it, and so does a request that
was made before. -/
def decideAddFriend (friendId : ℤ) : RelResult → RelDecision
  | .error => .reply .dbFail
  | .empty => .set friendId (0 ||| friend) 0
  | .ok rel =>
    if has rel.caller blocked || has rel.other blocked then .reply .blocked
    else if has rel.caller friend then .reply .alreadyFriend
    else .set friendId (rel.caller ||| friend) rel.other

/-- `CmdRemoveFriend` up to its write: it takes the bit from both sides, and needs it on one. -/
def decideRemoveFriend (friendId : ℤ) : RelResult → RelDecision
  | .ok rel =>
    if !has rel.caller friend && !has rel.other friend then .reply .notFound
    else setOrDelete friendId (rel.caller &&& ~~~friend) (rel.other &&& ~~~friend)
  | _ => .reply .notFound

/-- A row that could not be read counts as none. -/
def decideAddBlock (targetId : ℤ) : RelResult → RelDecision
  | .ok rel => .set targetId ((rel.caller ||| blocked) &&& ~~~friend) (rel.other &&& ~~~friend)
  | _ => .set targetId ((0 ||| blocked) &&& ~~~friend) (0 &&& ~~~friend)

/-- `CmdRemoveBlock` up to its write: only the caller's own block goes. -/
def decideRemoveBlock (targetId : ℤ) : RelResult → RelDecision
  | .ok rel =>
    if !has rel.caller blocked then .reply .notFound
    else setOrDelete targetId (rel.caller &&& ~~~blocked) rel.other
  | _ => .reply .notFound

/-! ## The commands -/

/-- The four commands on friends and blocks. -/
inductive FriendCommandType where
  | addFriend
  | removeFriend
  | addBlock
  | removeBlock
deriving DecidableEq, Repr

/-- A command: whose it is, the npid in its request (nothing if that does not decode), and
whether its two statements run. -/
structure FriendCommand where
  command : FriendCommandType
  userId : ℤ
  npid : Option String
  readOk : Bool
  writeOk : Bool

/-- What the four commands have in common up to their decision. -/
def relDecision (getUserId : String → Option ℤ) (decide : ℤ → RelResult → RelDecision)
    (c : FriendCommand) (t : Friendship) : RelDecision :=
  match c.npid with
  | none => .reply .malformed
  | some npid =>
    match getUserId npid with
    | none => .reply .notFound
    | some otherId =>
      if otherId = c.userId then .reply .invalidInput
      else decide otherId (getRelStatus t c.userId otherId c.readOk)

/-- `CmdAddFriend` as a decision on what it has read. -/
def cmdAddFriend (getUserId : String → Option ℤ) := relDecision getUserId decideAddFriend

/-- `CmdRemoveFriend` as a decision on what it has read. -/
def cmdRemoveFriend (getUserId : String → Option ℤ) := relDecision getUserId decideRemoveFriend

/-- `CmdAddBlock` as a decision on what it has read. -/
def cmdAddBlock (getUserId : String → Option ℤ) := relDecision getUserId decideAddBlock

/-- `CmdRemoveBlock` as a decision on what it has read. -/
def cmdRemoveBlock (getUserId : String → Option ℤ) := relDecision getUserId decideRemoveBlock

/-- A command up to its decision. -/
def FriendCommand.decide (getUserId : String → Option ℤ) (c : FriendCommand) :
    Friendship → RelDecision :=
  match c.command with
  | .addFriend => cmdAddFriend getUserId c
  | .removeFriend => cmdRemoveFriend getUserId c
  | .addBlock => cmdAddBlock getUserId c
  | .removeBlock => cmdRemoveBlock getUserId c

/-- The write, if any, and the error byte of the reply. -/
def FriendCommand.apply (c : FriendCommand) (d : RelDecision) (t : Friendship) :
    Friendship × ErrorType :=
  match d with
  | .reply e => (t, e)
  | .set otherId newCaller newOther =>
    let (t, ok) := setRelStatus t c.userId otherId newCaller newOther c.writeOk
    (t, if ok then .noError else .dbFail)
  | .delete otherId =>
    let (t, ok) := deleteRel t c.userId otherId c.writeOk
    (t, if ok then .noError else .dbFail)

/-- The decision is one to write or to delete the row. -/
def RelDecision.writes : RelDecision → Bool
  | .reply _ => false
  | _ => true

/-- The commands on the shared table, each a read and then a write. `getUserId` looks up the
accounts. -/
def friendCommands (getUserId : String → Option ℤ) :
    ReadWrite FriendCommand Friendship RelDecision ErrorType where
  decide := FriendCommand.decide getUserId
  writes := RelDecision.writes
  apply := FriendCommand.apply

/-- A step of one of the sessions, which are numbered. -/
abbrev FriendStep := ReadWrite.Step ℕ FriendCommand

/-- Friend commands on one table, each of which reads first and writes in a later step. -/
abbrev FriendState := ReadWrite.State ℕ FriendCommand Friendship ErrorType

/-- The table, and what each session is at, after the first `n` steps. -/
def friendsAfter (getUserId : String → Option ℤ) (t : Friendship) (steps : List FriendStep) (n : ℕ) :
    FriendState :=
  runAt (friendCommands getUserId).step (ReadWrite.init t) steps n

end ShadNet
