import Mathlib.Data.List.Permutation
import ShadNet.Spec.Friend

/-!
# Overlapping friend commands

* `decision_eq_iff`: a command decides on two rows alike exactly when the second passes its
  checks too and both have the same bits, but for those that the command sets or clears.
* `friends_serial`: when every write of a run finds such a row, table and error codes are
  those of the commands one after another.
* `block_lost`: otherwise they need not be.
-/

namespace ShadNet

open Lib FriendStatus

variable {k : FriendCommandType} {otherId : ℤ} {rel rel' : RelStatus} {r r' : RelResult}

/-! ## Bits -/

theorem or_eq_or_iff (a b f : UInt8) : a ||| f = b ||| f ↔ a &&& ~~~f = b &&& ~~~f := by
  -- bit by bit
  simp only [← UInt8.toBitVec_inj, BitVec.eq_of_getLsbD_eq_iff]
  refine forall₂_congr fun i hi => ?_
  simp
  grind

/-- A bit that is set and one that is cleared say nothing of what was there. -/
theorem or_and_eq_iff (a b f g : UInt8) :
    (a ||| g) &&& ~~~f = (b ||| g) &&& ~~~f ↔ a &&& ~~~(f ||| g) = b &&& ~~~(f ||| g) := by
  simp only [← UInt8.toBitVec_inj, BitVec.eq_of_getLsbD_eq_iff]
  refine forall₂_congr fun i hi => ?_
  simp
  grind

theorem setOrDelete_inj {c o c' o' : UInt8} :
    setOrDelete otherId c o = setOrDelete otherId c' o' ↔ c = c' ∧ o = o' := by
  unfold setOrDelete
  -- only the row without bits is deleted
  by_cases h : c = 0 ∧ o = 0
  · obtain ⟨rfl, rfl⟩ := h
    by_cases h' : c' = 0 ∧ o' = 0
    · simp [h']
    · simp [h', eq_comm]
  · by_cases h' : c' = 0 ∧ o' = 0
    · obtain ⟨rfl, rfl⟩ := h'
      simp [h]
    · simp [h, h']

/-! ## Decisions -/

/-- What a command decides about a row. -/
def FriendCommandType.decision (k : FriendCommandType) (otherId : ℤ) : RelResult → RelDecision :=
  match k with
  | .addFriend => decideAddFriend otherId
  | .removeFriend => decideRemoveFriend otherId
  | .addBlock => decideAddBlock otherId
  | .removeBlock => decideRemoveBlock otherId

/-- The checks of a command. -/
def FriendCommandType.accepts (k : FriendCommandType) (rel : RelStatus) : Bool :=
  match k with
  | .addFriend => !(has rel.caller blocked || has rel.other blocked) && !has rel.caller friend
  | .removeFriend => has rel.caller friend || has rel.other friend
  | .addBlock => true
  | .removeBlock => has rel.caller blocked

/-- The bits of the caller and of the other that a command leaves as they are. -/
def FriendCommandType.keeps (k : FriendCommandType) : UInt8 × UInt8 :=
  match k with
  | .addFriend => (~~~friend, ~~~0)
  | .removeFriend => (~~~friend, ~~~friend)
  | .addBlock => (~~~(friend ||| blocked), ~~~friend)
  | .removeBlock => (~~~blocked, ~~~0)

/-- `rel'` passes the checks of the command, and has the bits of `rel` that it keeps. -/
def FriendCommandType.Unmoved (k : FriendCommandType) (rel rel' : RelStatus) : Prop :=
  k.accepts rel' = true ∧ rel'.caller &&& k.keeps.1 = rel.caller &&& k.keeps.1 ∧
    rel'.other &&& k.keeps.2 = rel.other &&& k.keeps.2

instance (k : FriendCommandType) (rel rel' : RelStatus) : Decidable (k.Unmoved rel rel') :=
  inferInstanceAs (Decidable (_ ∧ _ ∧ _))

theorem setOrDelete_writes (c o : UInt8) : (setOrDelete otherId c o).writes = true := by
  unfold setOrDelete
  split <;> rfl

/-- A command writes exactly when its checks pass. -/
theorem decision_writes : (k.decision otherId (.ok rel)).writes = k.accepts rel := by
  cases k with
  | addFriend =>
    simp only [FriendCommandType.decision, decideAddFriend, FriendCommandType.accepts]
    cases has rel.caller blocked || has rel.other blocked <;> cases has rel.caller friend <;> rfl
  | removeFriend =>
    simp only [FriendCommandType.decision, decideRemoveFriend, FriendCommandType.accepts]
    cases has rel.caller friend <;> cases has rel.other friend
    case false.false => rfl
    all_goals exact setOrDelete_writes _ _
  | addBlock => rfl
  | removeBlock =>
    simp only [FriendCommandType.decision, decideRemoveBlock, FriendCommandType.accepts]
    cases has rel.caller blocked
    · rfl
    · exact setOrDelete_writes _ _

/-- The decision of a command whose checks pass. -/
theorem decision_of_accepts (h : k.accepts rel = true) :
    k.decision otherId (.ok rel) = match k with
      | .addFriend => .set otherId (rel.caller ||| friend) rel.other
      | .removeFriend => setOrDelete otherId (rel.caller &&& ~~~friend) (rel.other &&& ~~~friend)
      | .addBlock =>
        .set otherId ((rel.caller ||| blocked) &&& ~~~friend) (rel.other &&& ~~~friend)
      | .removeBlock => setOrDelete otherId (rel.caller &&& ~~~blocked) rel.other := by
  cases k <;> simp only [FriendCommandType.accepts, Bool.and_eq_true, Bool.not_eq_true',
    Bool.or_eq_true] at h
  case addFriend => simp [FriendCommandType.decision, decideAddFriend, h]
  case removeFriend => rcases h with h | h <;> simp [FriendCommandType.decision, decideRemoveFriend, h]
  case addBlock => rfl
  case removeBlock => simp [FriendCommandType.decision, decideRemoveBlock, h]

/-- **What a decision depends on.** -/
theorem decision_eq_iff (h : (k.decision otherId (.ok rel)).writes = true) :
    k.decision otherId (.ok rel') = k.decision otherId (.ok rel) ↔ k.Unmoved rel rel' := by
  have hacc : k.accepts rel = true := decision_writes.symm.trans h
  by_cases hacc' : k.accepts rel' = true
  · -- both write: the bytes agree when the bits do that the command neither sets nor clears
    rw [decision_of_accepts hacc, decision_of_accepts hacc']
    simp only [FriendCommandType.Unmoved, hacc', true_and]
    cases k <;> simp only [FriendCommandType.keeps, setOrDelete_inj, RelDecision.set.injEq, true_and,
      or_eq_or_iff, or_and_eq_iff, show ~~~(0 : UInt8) = -1 from rfl, UInt8.and_neg_one]
  · -- the second is refused, and so not the same decision
    refine iff_of_false ?_ fun hu => hacc' hu.1
    intro heq
    exact hacc' (decision_writes.symm.trans (heq ▸ h))

/-- A missing row counts as one without bits. -/
theorem decision_empty : k.decision otherId .empty = k.decision otherId (.ok ⟨0, 0⟩) := by
  cases k <;> rfl

/-! ## Runs -/

/-- The bits of the pair, seen by the caller. -/
def relStatus (t : Friendship) (callerId otherId : ℤ) : RelStatus :=
  match getRelStatus t callerId otherId true with
  | .ok rel => rel
  | _ => ⟨0, 0⟩

/-- The row that a command found in `read` is as good as unmoved in `now`. -/
def FriendCommand.Unmoved (getUserId : String → Option ℤ) (c : FriendCommand)
    (read now : Friendship) : Prop :=
  ∀ otherId ∈ c.npid.bind getUserId, c.readOk = true →
    c.command.Unmoved (relStatus read c.userId otherId) (relStatus now c.userId otherId)

variable {getUserId : String → Option ℤ} {c : FriendCommand} {t read now : Friendship}

/-- A row that was read, or is not there, is decided by its bits. -/
theorem getRelStatus_ok (callerId : ℤ) :
    k.decision otherId (getRelStatus t callerId otherId true) =
      k.decision otherId (.ok (relStatus t callerId otherId)) := by
  unfold relStatus
  cases h : getRelStatus t callerId otherId true with
  | ok rel => rfl
  | empty => exact decision_empty
  | error =>
    simp only [getRelStatus, Bool.not_true, Bool.false_eq_true, if_false] at h
    split at h <;> cases h

/-- The four commands differ in how they decide, and in nothing else. -/
theorem FriendCommand.decide_eq : c.decide getUserId t =
    relDecision getUserId c.command.decision c t := by
  unfold FriendCommand.decide
  cases c.command <;> rfl

/-- **A command that is to write decides the same** exactly when its row is unmoved. -/
theorem FriendCommand.decide_eq_iff (h : (c.decide getUserId read).writes = true) :
    c.decide getUserId now = c.decide getUserId read ↔ c.Unmoved getUserId read now := by
  rw [decide_eq] at h
  rw [decide_eq, decide_eq]
  unfold relDecision FriendCommand.Unmoved at *
  -- up to the read a command depends on nothing but its request
  cases hn : c.npid with
  | none => simp
  | some npid =>
    simp only [hn] at h
    simp only [Option.bind_some]
    cases hid : getUserId npid with
    | none => simp
    | some otherId =>
      simp only [hid] at h
      simp only [Option.mem_some_iff, forall_eq']
      by_cases hself : otherId = c.userId
      · rw [if_pos hself] at h
        cases h
      · rw [if_neg hself] at h
        rw [if_neg hself, if_neg hself]
        by_cases hr : c.readOk = true
        · rw [hr, getRelStatus_ok] at h
          rw [hr, getRelStatus_ok, getRelStatus_ok, decision_eq_iff h]
          simp
        · -- a read that fails does so on either row
          have hfail : ∀ t, getRelStatus t c.userId otherId c.readOk = .error := by
            intro t
            simp [getRelStatus, hr]
          rw [hfail, hfail]
          exact iff_of_true rfl fun hr' => absurd hr' hr

/-- A write finds its row unmoved. -/
def Unmoved (getUserId : String → Option ℤ) (s : FriendState) : FriendStep → Prop
  | .start _ _ => True
  | .finish i => ∀ p ∈ s.pending i, p.1.Unmoved getUserId p.2 s.store

/-- **Friend commands are serial** in every run whose writes find their rows unmoved. -/
theorem friends_serial (getUserId : String → Option ℤ) (t : Friendship) (steps : List FriendStep)
    (hrow : ∀ n (hn : n < steps.length), Unmoved getUserId (friendsAfter getUserId t steps n) steps[n])
    (n : ℕ) : (friendCommands getUserId).Serialised t (friendsAfter getUserId t steps n) := by
  -- a pending command is one that is to write
  refine ReadWrite.run_serial t steps (fun m hm => ?_) n
  have h := hrow m hm
  generalize steps[m] = e at h
  cases e with
  | start i c => trivial
  | finish i =>
    intro p hp
    have hwrites := ReadWrite.pending_writes t steps m i p hp
    exact (FriendCommand.decide_eq_iff hwrites).mpr (h p hp)

/-- Two accounts that know each other's name. -/
def twoAccounts : String → Option ℤ
  | "alice" => some 1
  | "bob" => some 2
  | _ => none

/-- Requests that do not overlap. -/
theorem mutual_requests : (friendCommands twoAccounts).Serialised ∅ (friendsAfter twoAccounts ∅
    [.start 0 ⟨.addFriend, 1, some "bob", true, true⟩, .finish 0,
      .start 1 ⟨.addFriend, 2, some "alice", true, true⟩, .finish 1] 4) :=
  friends_serial twoAccounts ∅ _ (by
    intro n hn
    match n, hn with
    | 0, _ => trivial
    | 1, _ => exact fun p hp => by cases hp; unfold FriendCommand.Unmoved; decide
    | 2, _ => trivial
    | 3, _ => exact fun p hp => by cases hp; unfold FriendCommand.Unmoved; decide) 4

/-- Alice blocks Bob. -/
def aliceBlocks : FriendCommand := ⟨.addBlock, 1, some "bob", true, true⟩

/-- Bob asks Alice for her friendship. -/
def bobAsks : FriendCommand := ⟨.addFriend, 2, some "alice", true, true⟩

/-- A block and a request at once: the block is gone, and nobody is told. -/
theorem block_lost : ¬ (friendCommands twoAccounts).Serialised ∅ (friendsAfter twoAccounts ∅
    [.start 0 aliceBlocks, .start 1 bobAsks, .finish 0, .finish 1] 4) := by
  rintro ⟨order, hperm, hserial⟩
  have horder : order ∈ [[(aliceBlocks, ErrorType.noError), (bobAsks, ErrorType.noError)],
      [(bobAsks, ErrorType.noError), (aliceBlocks, ErrorType.noError)]] :=
    List.mem_permutations'.mpr hperm
  rcases List.mem_pair.mp horder with rfl | rfl
  · -- the block first: the request is refused
    exact absurd (congrArg Prod.snd hserial) (by decide)
  · -- the request first: the block stays
    exact absurd (congrArg (fun r => r.1.get? (1, 2)) hserial) (by decide)

end ShadNet
