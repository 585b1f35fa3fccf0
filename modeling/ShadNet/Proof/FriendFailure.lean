import ShadNet.Proof.Relationship

/-!
# Friend commands whose database calls fail

* `decide_readFails`, `apply_writeFails`: what a command makes of a read, or a write, that fails.
* `failures_ok_iff`: it leaves everything as it is and says so, unless it is an `AddBlock` whose read
  fails while its write does not.
-/

namespace ShadNet

open Lib

variable {getUserId' : String → Option ℤ} {c : FriendCommand} {t : Friendship} {otherId : ℤ}

/-- The account that a command is about; only with one it gets as far as to read the row. -/
def FriendCommand.target (getUserId : String → Option ℤ) (c : FriendCommand) : Option ℤ :=
  (c.npid.bind getUserId).filter fun otherId => otherId ≠ c.userId

/-- The command reads the row, and the read returns an error. -/
def FriendCommand.ReadFails (getUserId : String → Option ℤ) (c : FriendCommand) : Prop :=
  (c.target getUserId).isSome = true ∧ c.readOk = false

/-- The command writes or deletes the row, and that returns false. -/
def FriendCommand.WriteFails (getUserId : String → Option ℤ) (c : FriendCommand) (t : Friendship) :
    Prop :=
  (c.decide getUserId t).writes = true ∧ c.writeOk = false

/-- A write that fails changes nothing, and is replied. -/
theorem apply_writeFails {d : RelDecision} (hd : d.writes = true) (hw : c.writeOk = false) :
    c.apply d t = (t, .dbFail) := by
  cases d with
  | reply e => cases hd
  | set otherId newCaller newOther => simp [FriendCommand.apply, setRelStatus, hw]
  | delete otherId => simp [FriendCommand.apply, deleteRel, hw]

/-- A read that fails is decided as such. -/
theorem decide_readFails (h : c.target getUserId' = some otherId) (hr : c.readOk = false) :
    c.decide getUserId' t = c.command.decision otherId .error := by
  obtain ⟨hid, hne⟩ := Option.filter_eq_some_iff.mp h
  obtain ⟨npid, hnpid, hid⟩ := Option.bind_eq_some_iff.mp hid
  have hread : getRelStatus t c.userId otherId c.readOk = .error := by simp [getRelStatus, hr]
  rw [FriendCommand.decide_eq]
  unfold relDecision
  simp only [hnpid, hid]
  rw [if_neg (by simpa using hne), hread]

/-- A read that fails is an error of its own, but for `AddBlock`. -/
theorem decision_error_refused {k : FriendCommandType} (hk : k ≠ .addBlock) (otherId : ℤ) :
    ∃ e, e ≠ ErrorType.noError ∧ k.decision otherId .error = .reply e := by
  cases k with
  | addFriend => exact ⟨.dbFail, by decide, rfl⟩
  | removeFriend => exact ⟨.notFound, by decide, rfl⟩
  | addBlock => exact absurd rfl hk
  | removeBlock => exact ⟨.notFound, by decide, rfl⟩

/-- **Calls that fail**: the table is left alone, with an error, except by an `AddBlock` that takes
the failure for an empty row and can write. -/
theorem apply_failures_iff (getUserId : String → Option ℤ) (c : FriendCommand) (t : Friendship) :
    (c.ReadFails getUserId ∨ c.WriteFails getUserId t →
      (c.apply (c.decide getUserId t) t).1 = t ∧ (c.apply (c.decide getUserId t) t).2 ≠ .noError) ↔
    ¬ (c.command = .addBlock ∧ c.ReadFails getUserId ∧ c.writeOk = true) := by
  constructor
  · rintro hok ⟨hblock, hread, hwrite⟩
    refine (hok (Or.inl hread)).2 ?_
    obtain ⟨hsome, hr⟩ := hread
    obtain ⟨otherId, hother⟩ := Option.isSome_iff_exists.mp hsome
    rw [decide_readFails hother hr, hblock]
    simp [FriendCommandType.decision, decideAddBlock, FriendCommand.apply, setRelStatus, hwrite]
  · rintro hcond (⟨hsome, hr⟩ | ⟨hwrites, hw⟩)
    · obtain ⟨otherId, hother⟩ := Option.isSome_iff_exists.mp hsome
      by_cases hblock : c.command = .addBlock
      · -- the write fails as well
        have hw : c.writeOk = false := by
          by_contra hw
          exact hcond ⟨hblock, ⟨hsome, hr⟩, by simpa using hw⟩
        have hwrites : (c.decide getUserId t).writes = true := by
          rw [decide_readFails hother hr, hblock]
          rfl
        rw [apply_writeFails hwrites hw]
        exact ⟨rfl, by simp⟩
      · obtain ⟨e, he, hd⟩ := decision_error_refused hblock otherId
        rw [decide_readFails hother hr, hd]
        exact ⟨rfl, he⟩
    · rw [apply_writeFails hwrites hw]
      exact ⟨rfl, by simp⟩

/-- The command as the table and the accounts see it. -/
def friendCommand (env : Env) (s : CommandState) (command : FriendCommandType)
    (npid : Option String) : FriendCommand :=
  ⟨command, s.session.info.userId, npid, env.readOk, env.writeOk⟩

/-- The table and the reply are those of the command itself. -/
theorem cmdFriend_result (env : Env) (s : CommandState) (command : FriendCommandType)
    (npid : Option String) :
    let c := friendCommand env s command npid
    let r := c.apply (c.decide (getUserId s.db) s.db.friendship) s.db.friendship
    (cmdFriend env s command npid).1.db.friendship = r.1 ∧ (cmdFriend env s command npid).2.1 = r.2 :=
  ⟨rfl, rfl⟩

/-- Without a write that succeeds nothing is entered either. -/
theorem cmdFriend_refused {env : Env} {s : CommandState} {command : FriendCommandType}
    {npid : Option String} (hdb : ((friendCommand env s command npid).apply
      ((friendCommand env s command npid).decide (getUserId s.db) s.db.friendship) s.db.friendship).1 =
        s.db.friendship)
    (he : ((friendCommand env s command npid).apply
      ((friendCommand env s command npid).decide (getUserId s.db) s.db.friendship) s.db.friendship).2 ≠
        .noError) :
    cmdFriend env s command npid = (s, ((friendCommand env s command npid).apply
      ((friendCommand env s command npid).decide (getUserId s.db) s.db.friendship)
        s.db.friendship).2, none) := by
  unfold friendCommand at *
  unfold cmdFriend
  simp only
  rw [hdb, if_neg he]

/-- **Friend commands and failures**: for every state of the table and of those who are online, a
command one of whose database calls fails changes nothing and replies an error, if and only if it is
no `AddBlock` that cannot read the row but can write it. -/
theorem failures_ok_iff (env : Env) (s : CommandState) (command : FriendCommandType)
    (npid : Option String) :
    let c := friendCommand env s command npid
    (c.ReadFails (getUserId s.db) ∨ c.WriteFails (getUserId s.db) s.db.friendship →
      (cmdFriend env s command npid).1 = s ∧ (cmdFriend env s command npid).2.1 ≠ .noError) ↔
    ¬ (command = .addBlock ∧ c.ReadFails (getUserId s.db) ∧ env.writeOk = true) := by
  intro c
  obtain ⟨htable, herror⟩ := cmdFriend_result env s command npid
  refine Iff.trans ?_ (apply_failures_iff (getUserId s.db) c s.db.friendship)
  constructor
  · intro hok hfails
    obtain ⟨hs, he⟩ := hok hfails
    rw [herror] at he
    rw [hs] at htable
    exact ⟨htable.symm, he⟩
  · intro hok hfails
    obtain ⟨hdb, he⟩ := hok hfails
    rw [cmdFriend_refused hdb he]
    exact ⟨rfl, he⟩

/-- Bob has asked Alice, who blocks him; the row cannot be read, and loses his request. -/
theorem request_wiped :
    ¬ ∀ env s command npid,
      let c := friendCommand env s command npid
      c.ReadFails (getUserId s.db) ∨ c.WriteFails (getUserId s.db) s.db.friendship →
        (cmdFriend env s command npid).1 = s ∧ (cmdFriend env s command npid).2.1 ≠ .noError := by
  intro h
  let db : Database := { aliceAndBob with friendship := Table.set ∅ (1, 2) (0, FriendStatus.friend) }
  let s : CommandState := ⟨db, {}, { info := { userId := 1, npid := "alice" }, authenticated := true }⟩
  obtain ⟨hsame, -⟩ := h { Env.plain with readOk := false } s .addBlock (some "bob")
    (Or.inl ⟨by decide, rfl⟩)
  have hrow := congrArg (fun s : CommandState => s.db.friendship.get? (1, 2)) hsame
  exact absurd hrow (by decide)

end ShadNet
