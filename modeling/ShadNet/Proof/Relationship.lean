import ShadNet.Proof.Friend
import ShadNet.Spec.Server

/-!
# Relationships

* `relStatus_symm`, `getRelStatus_setRelStatus`: both accounts of a row see it alike.
* `apply_cases`: what a friend command writes.
* `RowsOk.apply`: rows stay in order, none is without bits, and a block excludes a friendship.
* `mem_getRelationships`: what `GetRelationships` lists.
-/

namespace ShadNet

open Lib FriendStatus

/-! ## Flags -/

section flags

variable {c f g : UInt8}

/-- Of two statuses, a mask takes what it takes of each. -/
theorem or_and_distrib (a b f : UInt8) : (a ||| b) &&& f = a &&& f ||| b &&& f := by
  rw [← UInt8.toBitVec_inj]
  exact BitVec.and_or_distrib_right

/-- Setting a flag leaves the others alone. -/
theorem has_or (h : f &&& g = 0) : has (c ||| f) g = has c g := by
  unfold has
  rw [or_and_distrib, h, UInt8.or_zero]

/-- A bit that is set is there. -/
theorem has_or_self (h : f ≠ 0) : has (c ||| f) f = true := by
  unfold has
  rw [or_and_distrib, UInt8.and_self]
  simp [UInt8.or_eq_zero_iff, h]

/-- Clearing a bit leaves the others. -/
theorem has_clear (h : f &&& g = 0) : has (c &&& ~~~f) g = has c g := by
  have hg : ~~~f &&& g = g := by
    rw [← UInt8.zero_or (a := ~~~f &&& g), ← h, ← or_and_distrib, UInt8.or_not_self,
      UInt8.neg_one_and]
  unfold has
  rw [UInt8.and_assoc, hg]

/-- A bit that is cleared is not there. -/
theorem has_clear_self : has (c &&& ~~~f) f = false := by
  unfold has
  rw [UInt8.and_assoc, UInt8.not_and_self, UInt8.and_zero]
  rfl

theorem ne_zero_of_has (h : has c f = true) : c ≠ 0 := by
  rintro rfl
  simp [has] at h

end flags

/-! ## Rows -/

variable {t : Friendship} {a b : ℤ}

/-- The key of the row of two accounts. -/
def rowIds (a b : ℤ) : ℤ × ℤ := (min a b, max a b)

/-- Two accounts have one row, whoever asks. -/
theorem rowIds_comm (a b : ℤ) : rowIds a b = rowIds b a := by
  unfold rowIds
  rw [min_comm, max_comm]

/-- Two pairs share a row if they are the same two accounts. -/
theorem rowIds_eq_iff {c d : ℤ} : rowIds a b = rowIds c d ↔ (a = c ∧ b = d) ∨ (a = d ∧ b = c) := by
  unfold rowIds
  rw [Prod.mk.injEq]
  omega

theorem orderedIds_eq (a b : ℤ) :
    orderedIds a b = ((rowIds a b).1, (rowIds a b).2, decide (b ≤ a)) := by
  unfold orderedIds rowIds
  split
  · rename_i h
    simp [h.le, h]
  · rename_i h
    simp [not_lt.mp h]

/-- A row as its first account sees it, or as its second does. -/
def seenBy (swapped : Bool) (status : UInt8 × UInt8) : RelStatus :=
  ⟨if swapped then status.2 else status.1, if swapped then status.1 else status.2⟩

/-- The status of a relation is its row as the caller sees it. -/
theorem getRelStatus_eq (t : Friendship) (a b : ℤ) :
    getRelStatus t a b true = match t.get? (rowIds a b) with
      | none => .empty
      | some status => .ok (seenBy (decide (b ≤ a)) status) := by
  unfold getRelStatus
  rw [orderedIds_eq]
  simp only [Bool.not_true, Bool.false_eq_true, if_false]
  cases t.get? (rowIds a b) <;> rfl

/-- What an account sees of a relation, and nothing where there is no row. -/
theorem relStatus_eq (t : Friendship) (a b : ℤ) :
    relStatus t a b = ((t.get? (rowIds a b)).map (seenBy (decide (b ≤ a)))).getD ⟨0, 0⟩ := by
  unfold relStatus
  rw [getRelStatus_eq]
  cases t.get? (rowIds a b) <;> rfl

/-- What is read of a row that is not there is one without bits. -/
theorem getRelStatus_cases (t : Friendship) (a b : ℤ) :
    getRelStatus t a b true = .ok (relStatus t a b) ∨
      (getRelStatus t a b true = .empty ∧ relStatus t a b = ⟨0, 0⟩) := by
  rw [getRelStatus_eq, relStatus_eq]
  cases t.get? (rowIds a b) with
  | none => exact Or.inr ⟨rfl, rfl⟩
  | some status => exact Or.inl rfl

/-- **Both accounts see the same row.** -/
theorem relStatus_symm (h : a ≠ b) :
    relStatus t b a = ⟨(relStatus t a b).other, (relStatus t a b).caller⟩ := by
  rw [relStatus_eq, relStatus_eq, rowIds_comm b a]
  cases t.get? (rowIds a b) with
  | none => rfl
  | some status =>
    rcases lt_or_gt_of_ne h with hlt | hgt
    · simp [seenBy, hlt.le, hlt]
    · simp [seenBy, hgt.le, hgt]

/-- **What was set is read back**, by the caller and by the other. -/
theorem getRelStatus_setRelStatus (t : Friendship) (caller other : UInt8) (h : a ≠ b) :
    let t' := (setRelStatus t a b caller other true).1
    getRelStatus t' a b true = .ok ⟨caller, other⟩ ∧
      getRelStatus t' b a true = .ok ⟨other, caller⟩ := by
  intro t'
  have hrow : t'.get? (rowIds a b) =
      some (if b ≤ a then other else caller, if b ≤ a then caller else other) := by
    simp [t', setRelStatus, orderedIds_eq]
  rw [getRelStatus_eq, getRelStatus_eq, rowIds_comm b a, hrow]
  rcases lt_or_gt_of_ne h with hlt | hgt
  · simp [seenBy, hlt.le, not_le.mpr hlt]
  · simp [seenBy, hgt.le, not_le.mpr hgt]

/-- The row of the two accounts has the Friend bit on both sides. -/
def BothFriends (t : Friendship) (a b : ℤ) : Prop :=
  ∃ status, t.get? (min a b, max a b) = some status ∧ has status.1 friend = true ∧
    has status.2 friend = true

/-- Two accounts are friends if the bit is set on both sides. -/
theorem bothFriends_iff : BothFriends t a b ↔
    has (relStatus t a b).caller friend = true ∧ has (relStatus t a b).other friend = true := by
  unfold BothFriends
  rw [relStatus_eq, ← rowIds]
  cases t.get? (rowIds a b) with
  | none => simp [has]
  | some status => by_cases hle : b ≤ a <;> simp [seenBy, hle, and_comm]

theorem bothFriends_comm : BothFriends t a b ↔ BothFriends t b a := by
  unfold BothFriends
  rw [min_comm, max_comm]

/-! ## What a command writes -/

/-- The bits of a row after a command whose checks it passes. -/
def FriendCommandType.written (k : FriendCommandType) (rel : RelStatus) : RelStatus :=
  match k with
  | .addFriend => ⟨rel.caller ||| friend, rel.other⟩
  | .removeFriend => ⟨rel.caller &&& ~~~friend, rel.other &&& ~~~friend⟩
  | .addBlock => ⟨(rel.caller ||| blocked) &&& ~~~friend, rel.other &&& ~~~friend⟩
  | .removeBlock => ⟨rel.caller &&& ~~~blocked, rel.other⟩

/-- The row of the two accounts holds `rel`; there is none if that has no bits. -/
def putRel (t : Friendship) (a b : ℤ) (rel : RelStatus) : Friendship :=
  if rel.caller = 0 ∧ rel.other = 0 then t.del (rowIds a b)
  else t.set (rowIds a b) (if b ≤ a then rel.other else rel.caller,
    if b ≤ a then rel.caller else rel.other)

theorem setRelStatus_eq (caller other : UInt8) (h : ¬ (caller = 0 ∧ other = 0)) :
    setRelStatus t a b caller other true = (putRel t a b ⟨caller, other⟩, true) := by
  unfold setRelStatus putRel
  rw [orderedIds_eq, if_neg h]
  simp

theorem deleteRel_eq : deleteRel t a b true = (putRel t a b ⟨0, 0⟩, true) := by
  unfold deleteRel putRel
  rw [orderedIds_eq]
  simp

/-- The rows after a relation was written. -/
theorem get?_putRel (rel : RelStatus) (ids : ℤ × ℤ) : (putRel t a b rel).get? ids =
    if ids = rowIds a b then
      if rel.caller = 0 ∧ rel.other = 0 then none
      else some (if b ≤ a then rel.other else rel.caller, if b ≤ a then rel.caller else rel.other)
    else t.get? ids := by
  unfold putRel
  split
  · rw [Table.get?_del]
  · rw [Table.get?_set]

/-- A relation that was written is seen as it was written. -/
theorem relStatus_putRel (rel : RelStatus) (h : a ≠ b) : relStatus (putRel t a b rel) a b = rel := by
  rw [relStatus_eq, get?_putRel, if_pos rfl]
  split
  · rename_i hzero
    cases rel
    obtain ⟨rfl, rfl⟩ := hzero
    rfl
  · rcases lt_or_gt_of_ne h with hlt | hgt
    · simp [seenBy, not_le.mpr hlt]
    · simp [seenBy, hgt.le]

/-- Other relations stay as they were. -/
theorem relStatus_putRel_ne {rel : RelStatus} {c d : ℤ} (h : rowIds c d ≠ rowIds a b) :
    relStatus (putRel t a b rel) c d = relStatus t c d := by
  rw [relStatus_eq, relStatus_eq, get?_putRel, if_neg h]

/-- What a command has read: nothing if that failed. -/
def FriendCommand.read (c : FriendCommand) (t : Friendship) (otherId : ℤ) : RelStatus :=
  if c.readOk then relStatus t c.userId otherId else ⟨0, 0⟩

/-- A command that goes through finds the other account, and its checks pass. -/
structure FriendCommand.Passes (getUserId : String → Option ℤ) (c : FriendCommand) (t : Friendship)
    (otherId : ℤ) : Prop where
  found : c.npid.bind getUserId = some otherId
  ne : c.userId ≠ otherId
  accepts : c.command.accepts (c.read t otherId) = true

variable {getUserId : String → Option ℤ} {c : FriendCommand} {otherId : ℤ}

/-- A command whose checks fail is refused with an error. -/
theorem decision_refused {k : FriendCommandType} {rel : RelStatus} (h : k.accepts rel ≠ true) :
    ∃ e, e ≠ ErrorType.noError ∧ k.decision otherId (.ok rel) = .reply e := by
  cases k with
  | addFriend =>
    simp only [FriendCommandType.decision, decideAddFriend]
    by_cases hblocked : (has rel.caller blocked || has rel.other blocked) = true
    · exact ⟨.blocked, by decide, if_pos hblocked⟩
    · have hfriend : has rel.caller friend = true := by
        simpa [FriendCommandType.accepts, hblocked] using h
      rw [if_neg hblocked, if_pos hfriend]
      exact ⟨.alreadyFriend, by decide, rfl⟩
  | removeFriend =>
    refine ⟨.notFound, by decide, if_pos ?_⟩
    simpa [FriendCommandType.accepts] using h
  | addBlock => exact absurd rfl h
  | removeBlock =>
    refine ⟨.notFound, by decide, if_pos ?_⟩
    simpa [FriendCommandType.accepts] using h

/-- What is decided when the row could not be read, or is decided as on a row without bits. -/
theorem decision_error (k : FriendCommandType) :
    (∃ e, e ≠ ErrorType.noError ∧ k.decision otherId .error = .reply e) ∨
      k.decision otherId .error = k.decision otherId (.ok ⟨0, 0⟩) := by
  cases k with
  | addFriend => exact Or.inl ⟨.dbFail, by decide, rfl⟩
  | removeFriend => exact Or.inl ⟨.notFound, by decide, rfl⟩
  | addBlock => exact Or.inr rfl
  | removeBlock => exact Or.inl ⟨.notFound, by decide, rfl⟩

/-- A command is refused with an error, or decides by the bits that it has read, which pass its
checks. -/
theorem decide_cases (getUserId : String → Option ℤ) (c : FriendCommand) (t : Friendship) :
    (∃ e, e ≠ ErrorType.noError ∧ c.decide getUserId t = .reply e) ∨
    ∃ otherId, c.Passes getUserId t otherId ∧
      c.decide getUserId t = c.command.decision otherId (.ok (c.read t otherId)) := by
  rw [FriendCommand.decide_eq]
  unfold relDecision
  cases hn : c.npid with
  | none => exact Or.inl ⟨.malformed, by decide, rfl⟩
  | some npid =>
    simp only
    cases hid : getUserId npid with
    | none => exact Or.inl ⟨.notFound, by decide, rfl⟩
    | some otherId =>
      simp only
      by_cases hself : otherId = c.userId
      · exact Or.inl ⟨.invalidInput, by decide, if_pos hself⟩
      rw [if_neg hself]
      -- a read that fails is an error of its own, or reads a row without bits
      have hread : (∃ e, e ≠ ErrorType.noError ∧ c.command.decision otherId
            (getRelStatus t c.userId otherId c.readOk) = .reply e) ∨
          c.command.decision otherId (getRelStatus t c.userId otherId c.readOk) =
            c.command.decision otherId (.ok (c.read t otherId)) := by
        unfold FriendCommand.read
        by_cases hr : c.readOk = true
        · rw [hr, getRelStatus_ok, if_pos rfl]
          exact Or.inr rfl
        · have hfail : getRelStatus t c.userId otherId c.readOk = .error := by
            simp [getRelStatus, hr]
          rw [hfail, if_neg hr]
          exact decision_error c.command
      rcases hread with hfail | hread
      · exact Or.inl hfail
      rw [hread]
      by_cases hacc : c.command.accepts (c.read t otherId) = true
      · exact Or.inr ⟨otherId, ⟨by simp [hn, hid], Ne.symm hself, hacc⟩, rfl⟩
      · exact Or.inl (decision_refused hacc)

/-- A command writes the row, or deletes it when no bits are left. -/
theorem decision_written {k : FriendCommandType} {rel : RelStatus} (h : k.accepts rel = true) :
    k.decision otherId (.ok rel) =
      setOrDelete otherId (k.written rel).caller (k.written rel).other := by
  have hset : ∀ caller other, caller ≠ 0 →
      setOrDelete otherId caller other = .set otherId caller other := by
    intro caller other hne
    exact if_neg fun hzero => hne hzero.1
  rw [decision_of_accepts h]
  cases k with
  | addFriend => exact (hset _ _ (ne_zero_of_has (has_or_self (by decide)))).symm
  | removeFriend => rfl
  | addBlock =>
    refine (hset _ _ (ne_zero_of_has (f := blocked) ?_)).symm
    rw [has_clear (by decide), has_or_self (by decide)]
  | removeBlock => rfl

/-- A decision to set or to delete writes the relation, unless the statement fails. -/
theorem apply_setOrDelete (c : FriendCommand) (rel : RelStatus) :
    c.apply (setOrDelete otherId rel.caller rel.other) t =
      if c.writeOk then (putRel t c.userId otherId rel, .noError) else (t, .dbFail) := by
  unfold setOrDelete
  by_cases hw : c.writeOk = true
  · rw [if_pos hw]
    split
    · rename_i hzero
      cases rel
      obtain ⟨rfl, rfl⟩ := hzero
      simp only [FriendCommand.apply, hw, deleteRel_eq, if_true]
    · rename_i hzero
      simp only [FriendCommand.apply, hw, setRelStatus_eq _ _ hzero, if_true]
  · rw [if_neg hw]
    rw [Bool.not_eq_true] at hw
    split <;> simp [FriendCommand.apply, setRelStatus, deleteRel, hw]

/-- **What a friend command does**: nothing and an error, or it passes its checks and writes the
row. -/
theorem apply_cases (getUserId : String → Option ℤ) (c : FriendCommand) (t : Friendship) :
    let r := c.apply (c.decide getUserId t) t
    (r.1 = t ∧ r.2 ≠ .noError) ∨
    ∃ otherId, c.Passes getUserId t otherId ∧
      c.decide getUserId t = c.command.decision otherId (.ok (c.read t otherId)) ∧
      r = (putRel t c.userId otherId (c.command.written (c.read t otherId)), .noError) := by
  intro r
  rcases decide_cases getUserId c t with ⟨e, he, hd⟩ | ⟨otherId, hpass, hd⟩
  · refine Or.inl ?_
    simp only [r, hd]
    exact ⟨rfl, he⟩
  · have hr : r = if c.writeOk then
        (putRel t c.userId otherId (c.command.written (c.read t otherId)), .noError)
        else (t, .dbFail) := by
      simp only [r]
      rw [hd, decision_written hpass.accepts, apply_setOrDelete]
    by_cases hw : c.writeOk = true
    · rw [if_pos hw] at hr
      exact Or.inr ⟨otherId, hpass, hd, hr⟩
    · rw [if_neg hw] at hr
      rw [hr]
      exact Or.inl ⟨rfl, nofun⟩

/-! ## What every row keeps -/

/-- A block on either side excludes a friendship on both. -/
def Exclusive (rel : RelStatus) : Prop :=
  has rel.caller blocked = true ∨ has rel.other blocked = true →
    has rel.caller friend = false ∧ has rel.other friend = false

/-- The smaller id comes first, some bit is set, and a block excludes a friendship. -/
structure RowOk (ids : ℤ × ℤ) (status : UInt8 × UInt8) : Prop where
  ordered : ids.1 < ids.2
  nonempty : status ≠ (0, 0)
  exclusive : has status.1 blocked = true ∨ has status.2 blocked = true →
    has status.1 friend = false ∧ has status.2 friend = false

/-- Every row is in order. -/
def RowsOk (t : Friendship) : Prop := ∀ ids status, t.get? ids = some status → RowOk ids status

theorem RowsOk.exclusive (h : RowsOk t) (a b : ℤ) : Exclusive (relStatus t a b) := by
  rw [relStatus_eq]
  cases hrow : t.get? (rowIds a b) with
  | none => simp [Exclusive, has]
  | some status =>
    have hex := (h _ _ hrow).exclusive
    unfold Exclusive
    by_cases hle : b ≤ a
    · simp only [seenBy, hle, decide_true, if_true, Option.map_some, Option.getD_some]
      exact fun hb => (hex hb.symm).symm
    · simp only [seenBy, hle, decide_false, Bool.false_eq_true, if_false, Option.map_some,
        Option.getD_some]
      exact hex

/-- Writing a relation that is no block and friendship at once keeps the rows in order. -/
theorem RowsOk.putRel {rel : RelStatus} (h : RowsOk t) (hne : a ≠ b) (hrel : Exclusive rel) :
    RowsOk (putRel t a b rel) := by
  intro ids status hrow
  rw [get?_putRel] at hrow
  split at hrow
  · rename_i hids
    split at hrow
    · cases hrow
    · rename_i hzero
      obtain rfl := Option.some.inj hrow
      refine ⟨?_, ?_, ?_⟩
      · rw [hids]
        exact min_lt_max.mpr hne
      · by_cases hle : b ≤ a
        · simpa [hle, and_comm] using hzero
        · simpa [hle] using hzero
      · by_cases hle : b ≤ a
        · simp only [hle, if_true]
          exact fun hb => (hrel hb.symm).symm
        · simp only [hle, if_false]
          exact hrel
  · exact h _ _ hrow

/-- A command whose checks pass keeps blocks and friendships apart. -/
theorem Exclusive.written {k : FriendCommandType} {rel : RelStatus} (h : Exclusive rel)
    (hacc : k.accepts rel = true) : Exclusive (k.written rel) := by
  cases k with
  | addFriend =>
    -- neither side has a block
    have hnone : has rel.caller blocked = false ∧ has rel.other blocked = false := by
      simp only [FriendCommandType.accepts, Bool.and_eq_true, Bool.not_eq_true',
        Bool.or_eq_false_iff] at hacc
      exact hacc.1
    intro hb
    simp only [FriendCommandType.written] at hb
    rw [has_or (by decide), hnone.1, hnone.2] at hb
    simp at hb
  | removeFriend => exact fun _ => ⟨has_clear_self, has_clear_self⟩
  | addBlock => exact fun _ => ⟨has_clear_self, has_clear_self⟩
  | removeBlock =>
    -- the block that goes has excluded a friendship until now
    have hex := h (Or.inl hacc)
    intro _
    simp only [FriendCommandType.written]
    rw [has_clear (by decide)]
    exact hex

/-- **A friend command keeps the rows well formed.** -/
theorem RowsOk.apply (h : RowsOk t) (c : FriendCommand) :
    RowsOk (c.apply (c.decide getUserId t) t).1 := by
  rcases apply_cases getUserId c t with ⟨hsame, -⟩ | ⟨otherId, hpass, -, heq⟩
  · rw [hsame]
    exact h
  · rw [heq]
    refine h.putRel hpass.ne (Exclusive.written ?_ hpass.accepts)
    unfold FriendCommand.read
    split
    · exact h.exclusive _ _
    · simp [Exclusive, has]

/-! ## What `GetRelationships` lists -/

/-- The four lists of `UserRelationships`. -/
inductive RelList where
  | friends
  | sent
  | received
  | blocked
deriving DecidableEq, Repr

/-- The four lists by their names. -/
def UserRelationships.list (r : UserRelationships) : RelList → List (ℤ × String)
  | .friends => r.friends
  | .sent => r.friendRequestsSent
  | .received => r.friendRequestsReceived
  | .blocked => r.blocked

/-- Which rows a list shows, by the bits on one's own side and on the other's. -/
def RelList.shows : RelList → RelStatus → Bool
  | .friends, rel => has rel.caller friend && has rel.other friend
  | .sent, rel => has rel.caller friend && !has rel.other friend
  | .received, rel => !has rel.caller friend && has rel.other friend
  | .blocked, rel => has rel.caller FriendStatus.blocked

/-- The other account of a row of the user's, and the row as the user sees it. -/
def otherSide (userId : ℤ) (row : (ℤ × ℤ) × UInt8 × UInt8) : ℤ × RelStatus :=
  if row.1.1 = userId then (row.1.2, seenBy false row.2) else (row.1.1, seenBy true row.2)

theorem addRow_eq (db : Database) (userId : ℤ) (r : UserRelationships)
    (row : (ℤ × ℤ) × UInt8 × UInt8) :
    let other := otherSide userId row
    r.addRow db userId row = match getUsername db other.1 with
      | none => r
      | some npid =>
        let shown (k : RelList) := if k.shows other.2 then [(other.1, npid)] else []
        ⟨r.friends ++ shown .friends, r.friendRequestsSent ++ shown .sent,
          r.friendRequestsReceived ++ shown .received, r.blocked ++ shown .blocked⟩ := by
  intro other
  obtain ⟨⟨uid1, uid2⟩, su1, su2⟩ := row
  have hother : (if uid1 = userId then (uid2, su1, su2) else (uid1, su2, su1)) =
      (other.1, other.2.caller, other.2.other) := by
    simp only [other, otherSide, seenBy]
    split <;> rfl
  unfold UserRelationships.addRow
  simp only [hother]
  cases getUsername db other.1 with
  | none => rfl
  | some npid =>
    simp only [RelList.shows]
    -- by the bits of the two sides
    by_cases hme : has other.2.caller friend = true <;>
      by_cases hother : has other.2.other friend = true <;>
      by_cases hblocked : has other.2.caller FriendStatus.blocked = true <;>
      simp [hme, hother, hblocked]

/-- A row adds its other account to the lists that show it. -/
theorem mem_addRow (db : Database) (userId : ℤ) (r : UserRelationships)
    (row : (ℤ × ℤ) × UInt8 × UInt8) (k : RelList) (v : ℤ) (npid : String) :
    (v, npid) ∈ (r.addRow db userId row).list k ↔ (v, npid) ∈ r.list k ∨
      (getUsername db v = some npid ∧ v = (otherSide userId row).1 ∧
        k.shows (otherSide userId row).2 = true) := by
  rw [addRow_eq]
  generalize otherSide userId row = other
  cases hname : getUsername db other.1 with
  | none =>
    refine ⟨Or.inl, ?_⟩
    rintro (h | ⟨hv, rfl, -⟩)
    · exact h
    · rw [hname] at hv
      cases hv
  | some npid' =>
    have hlist : (v, npid) ∈ (if k.shows other.2 then [(other.1, npid')] else []) ↔
        getUsername db v = some npid ∧ v = other.1 ∧ k.shows other.2 = true := by
      constructor
      · intro h
        split at h
        · rename_i hshows
          obtain ⟨rfl, rfl⟩ := Prod.mk.inj (List.mem_singleton.mp h)
          exact ⟨hname, rfl, hshows⟩
        · cases h
      · rintro ⟨hv, rfl, hshows⟩
        rw [hname] at hv
        rw [if_pos hshows, Option.some.inj hv]
        exact List.mem_singleton_self _
    rw [← hlist]
    cases k <;> exact List.mem_append

/-- What a list shows after all rows. -/
theorem mem_foldl_addRow (db : Database) (userId : ℤ) (rows : List ((ℤ × ℤ) × UInt8 × UInt8))
    (r : UserRelationships) (k : RelList) (v : ℤ) (npid : String) :
    (v, npid) ∈ (rows.foldl (UserRelationships.addRow db userId) r).list k ↔ (v, npid) ∈ r.list k ∨
      ∃ row ∈ rows, getUsername db v = some npid ∧ v = (otherSide userId row).1 ∧
        k.shows (otherSide userId row).2 = true := by
  induction rows generalizing r with
  | nil => simp
  | cons row rows ih =>
    rw [List.foldl_cons, ih, mem_addRow, or_assoc]
    simp only [List.mem_cons, exists_eq_or_imp]

/-- The rows of the smaller id first. -/
def Ordered (t : Friendship) : Prop := ∀ ids status, t.get? ids = some status → ids.1 < ids.2

theorem RowsOk.ordered (h : RowsOk t) : Ordered t := fun ids status hrow => (h ids status hrow).ordered

/-- The user's row with `v`, as the user sees it. -/
theorem otherSide_of_row {status : UInt8 × UInt8} (h : Ordered t) {u v : ℤ}
    (hrow : t.get? (rowIds u v) = some status) :
    otherSide u (rowIds u v, status) = (v, relStatus t u v) := by
  have hlt := h _ _ hrow
  rw [relStatus_eq, hrow]
  unfold otherSide
  unfold rowIds at *
  rcases lt_or_ge u v with huv | hvu
  · simp [min_eq_left huv.le, max_eq_right huv.le, not_le.mpr huv]
  · rw [min_eq_right hvu, max_eq_left hvu] at *
    simp only at hlt
    simp [hvu, hlt.ne]

/-- **The lists** name the accounts whose row shows the bits of the list. -/
theorem mem_getRelationships {db : Database} (h : Ordered db.friendship) (u : ℤ) (k : RelList)
    (v : ℤ) (npid : String) : (v, npid) ∈ (getRelationships db u true).list k ↔
      getUsername db v = some npid ∧ k.shows (relStatus db.friendship u v) = true := by
  have hnone : (v, npid) ∉ ({} : UserRelationships).list k := by
    cases k <;> exact List.not_mem_nil
  unfold getRelationships
  simp only [Bool.not_true, Bool.false_eq_true, if_false]
  rw [mem_foldl_addRow, or_iff_right hnone]
  constructor
  · rintro ⟨⟨ids, status⟩, hrow, hname, hv, hshows⟩
    obtain ⟨hmem, hmine⟩ := List.mem_filter.mp hrow
    rw [Table.mem_inOrder] at hmem
    -- the row is the one of the user and `v`
    have hids : ids = rowIds u v := by
      have hlt := h _ _ hmem
      rw [hv]
      unfold otherSide rowIds
      obtain ⟨id1, id2⟩ := ids
      simp only [decide_eq_true_eq] at hmine hlt
      simp only
      split
      · rename_i heq
        rw [Prod.mk.injEq]
        omega
      · rw [Prod.mk.injEq]
        omega
    rw [hids] at hmem hshows
    rw [otherSide_of_row h hmem] at hshows
    exact ⟨hname, hshows⟩
  · rintro ⟨hname, hshows⟩
    -- a row that shows anything is there
    cases hrow : db.friendship.get? (rowIds u v) with
    | none =>
      rw [relStatus_eq, hrow] at hshows
      cases k <;> simp [RelList.shows, has] at hshows
    | some status =>
      refine ⟨(rowIds u v, status), List.mem_filter.mpr ⟨Table.mem_inOrder.mpr hrow, ?_⟩, hname, ?_⟩
      · unfold rowIds
        simp only [decide_eq_true_eq]
        omega
      · rw [otherSide_of_row h hrow]
        exact ⟨rfl, hshows⟩

end ShadNet
