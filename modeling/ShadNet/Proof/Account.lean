import ShadNet.Spec.Server

/-!
# What the account commands do

`CmdCreate` and `CmdDelete` in closed form: they refuse, or they do what is said here, whatever they
are asked. The invariants of the server follow from this.
-/

namespace ShadNet

open Lib

/-- An account is found under the very name that it was registered with. -/
theorem checkUser_found {sv : Services} {db : Database} {npid password token : String}
    {checkToken : Bool} {user : UserRecord}
    (h : checkUser sv db npid password token checkToken = some user) :
    user ∈ db.accounts ∧ user.username = npid := by
  unfold checkUser at h
  cases hfind : db.findUser npid with
  | none => simp [hfind] at h
  | some found =>
    simp only [hfind] at h
    split at h
    · cases h
    rename_i hname
    split at h
    · cases h
    split at h
    · cases h
    obtain rfl := Option.some.inj h
    exact ⟨List.mem_of_find?_eq_some hfind, not_not.mp hname⟩

/-- **What `CreateAccount` does**: nothing, or it adds an account under a new id and a new name. -/
theorem createAccount_cases (sv : Services) (aenv : AccountEnv) (db : Database)
    (npid password avatarUrl email : String) :
    let db' := (createAccount sv aenv db npid password avatarUrl email).1
    db' = db ∨ ∃ account : UserRecord, npid ≠ "" ∧ db.findUser npid = none ∧ account.userId = db.lastId + 1 ∧
      account.username = npid ∧
      db' = { db with accounts := db.accounts ++ [account], lastId := db.lastId + 1 } := by
  unfold createAccount
  simp only
  generalize (if email = "" then "" else sv.qt.trimmed (sv.qt.toLower email)) = emailCheck
  split
  · exact Or.inl rfl
  rename_i hempty
  split
  · exact Or.inl rfl
  split
  · exact Or.inl rfl
  rename_i hfind
  split
  · exact Or.inl rfl
  split
  · exact Or.inl rfl
  split
  · exact Or.inl rfl
  split
  · exact Or.inl rfl
  refine Or.inr ⟨_, fun heq => hempty (Or.inl heq), by simpa using hfind, ?_, ?_, rfl⟩
  · rfl
  · rfl

/-- What the schema promises of ids: each names one account, and was given to it. -/
structure Database.IdsOk (db : Database) : Prop where
  unique : ∀ a ∈ db.accounts, ∀ b ∈ db.accounts, a.userId = b.userId → a = b
  given : ∀ a ∈ db.accounts, a.userId ≤ db.lastId

/-- A new account has an id that no account has had. -/
theorem createAccount_ids {db : Database} (h : db.IdsOk) (sv : Services) (aenv : AccountEnv)
    (npid password avatarUrl email : String) :
    (createAccount sv aenv db npid password avatarUrl email).1.IdsOk := by
  rcases createAccount_cases sv aenv db npid password avatarUrl email with
    heq | ⟨account, -, -, hid, -, heq⟩
  · rw [heq]
    exact h
  · rw [heq]
    have hold : ∀ a ∈ db.accounts, a.userId ≠ account.userId := by
      intro a ha heq
      have hle := h.given a ha
      omega
    constructor
    · intro a ha b hb hab
      simp only [List.mem_append, List.mem_singleton] at ha hb
      rcases ha with ha | rfl <;> rcases hb with hb | rfl
      · exact h.unique a ha b hb hab
      · exact absurd hab (hold a ha)
      · exact absurd hab.symm (hold b hb)
      · rfl
    · intro a ha
      simp only [List.mem_append, List.mem_singleton] at ha
      simp only [Nat.cast_add, Nat.cast_one]
      rcases ha with ha | rfl
      · have hle := h.given a ha
        omega
      · omega

/-- Whatever is left has the ids that it had. -/
theorem deleteUser_ids {db : Database} (h : db.IdsOk) (userId : ℤ) : (deleteUser db userId).IdsOk :=
  ⟨fun a ha b hb => h.unique a (List.mem_of_mem_filter ha) b (List.mem_of_mem_filter hb),
    fun a ha => h.given a (List.mem_of_mem_filter ha)⟩

/-- `UNIQUE(username COLLATE NOCASE)`. -/
def Database.UniqueNames (db : Database) : Prop :=
  ∀ a ∈ db.accounts, ∀ b ∈ db.accounts, noCase a.username = noCase b.username → a = b

theorem aliceAndBob_ids : aliceAndBob.IdsOk := by
  constructor
  · simp [aliceAndBob, plainUser]
  · decide

theorem aliceAndBob_uniqueNames : aliceAndBob.UniqueNames := by
  unfold Database.UniqueNames aliceAndBob
  simp [plainUser, noCase]

/-- An account is found under its name. -/
theorem Database.UniqueNames.findUser {db : Database} (h : db.UniqueNames) {a : UserRecord}
    (ha : a ∈ db.accounts) : db.findUser a.username = some a := by
  unfold Database.findUser
  cases hfind : db.accounts.find? fun b => noCase b.username = noCase a.username with
  | none =>
    have hno := List.find?_eq_none.mp hfind a ha
    simp at hno
  | some b =>
    have hname := List.find?_some hfind
    rw [h b (List.mem_of_find?_eq_some hfind) a ha (of_decide_eq_true hname)]

/-- `CreateAccount` looks a name up before it adds it. -/
theorem createAccount_uniqueNames {db : Database} (h : db.UniqueNames) (sv : Services)
    (aenv : AccountEnv) (npid password avatarUrl email : String) :
    (createAccount sv aenv db npid password avatarUrl email).1.UniqueNames := by
  rcases createAccount_cases sv aenv db npid password avatarUrl email with
    heq | ⟨account, -, hnone, -, hname, heq⟩
  · rw [heq]
    exact h
  · have hold : ∀ a ∈ db.accounts, noCase a.username ≠ noCase account.username := by
      intro a ha
      rw [hname]
      simpa using List.find?_eq_none.mp hnone a ha
    rw [heq]
    intro a ha b hb hab
    simp only [List.mem_append, List.mem_singleton] at ha hb
    rcases ha with ha | rfl <;> rcases hb with hb | rfl
    · exact h a ha b hb hab
    · exact absurd hab (hold a ha)
    · exact absurd hab.symm (hold b hb)
    · rfl

/-- **A registration** is refused, or the database decides. -/
theorem cmdCreate_cases (sv : Services) (env : Env) (cs : CommandState)
    (req : Option RegistrationRequest) :
    (∃ e, cmdCreate sv env cs req = (cs, e, none)) ∨
    ∃ r avatarUrl e, req = some r ∧ e ≠ .malformed ∧ cmdCreate sv env cs req =
      ({ cs with
        db := (createAccount sv env.account cs.db r.npid r.password avatarUrl r.email).1 },
        e, none) := by
  cases req with
  | none => exact Or.inl ⟨_, rfl⟩
  | some r =>
    unfold cmdCreate
    simp only
    split
    · exact Or.inl ⟨_, rfl⟩
    split
    · exact Or.inl ⟨_, rfl⟩
    split
    · exact Or.inl ⟨_, rfl⟩
    split
    · exact Or.inl ⟨_, rfl⟩
    -- whatever comes of it, the database is the one that `CreateAccount` leaves
    refine Or.inr ⟨r, if r.avatarUrl = "" then "https://shadps4.net/shadnet/avatars/default_01.png"
      else r.avatarUrl, ?_⟩
    split
    all_goals
      rename_i heq
      rw [heq]
      refine ⟨_, rfl, ?_, rfl⟩
      exact nofun

/-- The caller's session after his own account is gone. -/
def CommandState.afterDelete (cs : CommandState) (userId : ℤ) : CommandState :=
  ⟨deleteUser cs.db userId, { cs.shared with clients := cs.shared.clients.del userId },
    { cs.session with authenticated := false }⟩

/-- **A deletion** is refused, or takes away the caller's own account, or somebody else's. -/
theorem cmdDelete_cases (sv : Services) (env : Env) (cs : CommandState)
    (req : Option (String × String)) :
    (∃ e, cmdDelete sv env cs req = (cs, e, none)) ∨
    (∃ npid password user, req = some (npid, password) ∧
      checkUser sv cs.db npid password "" false = some user ∧ env.writeOk = true ∧
      user.userId = cs.session.info.userId ∧
      cmdDelete sv env cs req = (cs.afterDelete cs.session.info.userId, .noError, none)) ∨
    ∃ userId, userId ≠ cs.session.info.userId ∧
      cmdDelete sv env cs req = ({ cs with db := deleteUser cs.db userId }, .noError, none) := by
  cases req with
  | none => exact Or.inl ⟨_, rfl⟩
  | some r =>
    obtain ⟨npid, password⟩ := r
    unfold cmdDelete
    simp only
    split
    · exact Or.inl ⟨_, rfl⟩
    rename_i user hcheck
    split
    · exact Or.inl ⟨_, rfl⟩
    split
    · exact Or.inl ⟨_, rfl⟩
    rename_i hwrite
    split
    · rename_i hself
      refine Or.inr (Or.inl ⟨npid, password, user, rfl, hcheck, by simpa using hwrite, hself, ?_⟩)
      rw [hself]
      rfl
    · rename_i hself
      exact Or.inr (Or.inr ⟨user.userId, hself, rfl⟩)

end ShadNet
