import ShadNet.Spec.Friend
import ShadNet.Spec.Qt

/-!
# Accounts

The `account` table, and the database calls that look accounts up, check, create and delete
them.
-/

namespace ShadNet

open Lib

/-- A row of the table `account`, with what the commands read of it. -/
structure UserRecord where
  userId : ℤ
  username : String
  hash : List UInt8
  salt : List UInt8
  avatarUrl : String
  email : String
  emailCheck : String
  token : String
  admin : Bool
  statAgent : Bool
  banned : Bool

/-- The tables that accounts and friends are in. -/
structure Database where
  accounts : List UserRecord
  /-- the greatest id that was ever given; `AUTOINCREMENT` counts on from it -/
  lastId : ℕ
  friendship : Friendship

/-- What the account commands read of `ConfigManager`. -/
structure ServerConfig where
  emailValidated : Bool
  bannedDomains : List String
  registrationSecretKey : String

/-- What the server is given from outside: Qt, the password hash and its configuration. -/
structure Services where
  qt : Qt
  hashPassword : String → List UInt8 → List UInt8
  config : ServerConfig

/-- Without a key in the configuration everybody may register. -/
def ServerConfig.isRegistrationAllowed (config : ServerConfig) (key : String) : Bool :=
  config.registrationSecretKey = "" ∨ (key ≠ "" ∧ key = config.registrationSecretKey)

/-- The list is in lower case, and is asked for the domain in lower case. -/
def Services.isBannedDomain (sv : Services) (d : String) : Bool :=
  sv.qt.toLower d ∈ sv.config.bannedDomains

/-- What `COLLATE NOCASE` compares. -/
def noCase (s : String) : List Char := s.toList.map Char.toLower

/-- `WHERE username = :u COLLATE NOCASE`; names are unique in that sense. -/
def Database.findUser (db : Database) (npid : String) : Option UserRecord :=
  db.accounts.find? fun a => noCase a.username = noCase npid

/-- The name must be spelled as it was registered. -/
def checkUser (sv : Services) (db : Database) (npid password token : String) (checkToken : Bool) :
    Option UserRecord :=
  match db.findUser npid with
  | none => none
  | some r =>
    if r.username ≠ npid then none
    else if sv.hashPassword password r.salt ≠ r.hash then none
    else if checkToken ∧ r.token ≠ token then none
    else some r

/-- The account that a name belongs to, in whatever case it is written. -/
def getUserId (db : Database) (npid : String) : Option ℤ := (db.findUser npid).map (·.userId)

/-- The npid of an account, as it was registered. -/
def getUsername (db : Database) (userId : ℤ) : Option String :=
  (db.accounts.find? fun a => a.userId = userId).map (·.username)

/-- Rows of the user's friendships go too. -/
def deleteUser (db : Database) (userId : ℤ) : Database :=
  { db with
    accounts := db.accounts.filter fun a => a.userId ≠ userId
    friendship := db.friendship.filterMap fun ids status =>
      if ids.1 = userId ∨ ids.2 = userId then none else some status }

/-- Why an account is not created. -/
inductive DbError where
  | existingUsername
  | existingEmail
  | invalidInput
  | invalidEmail
  | internal
deriving DecidableEq, Repr

/-- What `CreateAccount` draws at random, and whether the database runs its statements. -/
structure AccountEnv where
  salt : List UInt8
  token : String
  exec : Bool

/-- `Database::CreateAccount`. The name is looked up before the mail address is checked; an
insertion that the table refuses is reported as a name that exists. -/
def createAccount (sv : Services) (env : AccountEnv) (db : Database)
    (npid password avatarUrl email : String) : Database × Option DbError :=
  let emailCheck := if email = "" then "" else sv.qt.trimmed (sv.qt.toLower email)
  let hash := sv.hashPassword password env.salt
  if npid = "" ∨ password = "" then (db, some .invalidInput)
  else if !env.exec then (db, some .internal)
  else if (db.findUser npid).isSome then (db, some .existingUsername)
  else if email ≠ "" ∧ ('@' ∉ emailCheck.toList ∨ '.' ∉ emailCheck.toList) then
    (db, some .invalidEmail)
  else if email ≠ "" ∧ db.accounts.any (fun a => a.emailCheck = emailCheck) then
    (db, some .existingEmail)
  else if env.salt = [] ∨ hash = [] ∨ env.token = "" then (db, some .internal)
  -- an empty address may still collide with another one
  else if db.accounts.any (fun a => a.emailCheck = emailCheck) then (db, some .existingUsername)
  else
    let account : UserRecord :=
      ⟨db.lastId + 1, npid, hash, env.salt, avatarUrl, email, emailCheck, env.token, false, false,
        false⟩
    ({ db with accounts := db.accounts ++ [account], lastId := db.lastId + 1 }, none)

/-! ## Two accounts -/

/-- A server for ASCII text that anyone may register with. -/
def Services.plain : Services where
  qt := .ascii
  hashPassword password salt := password.toList.map (fun c => c.toNat.toUInt8) ++ salt
  config := ⟨false, [], ""⟩

/-- An account whose password is its name. -/
def plainUser (userId : ℤ) (username : String) : UserRecord where
  userId := userId
  username := username
  hash := Services.plain.hashPassword username [7]
  salt := [7]
  avatarUrl := ""
  email := ""
  emailCheck := username
  token := username
  admin := false
  statAgent := false
  banned := false

/-- Alice has id 1 and Bob id 2. -/
def aliceAndBob : Database := ⟨[plainUser 1 "alice", plainUser 2 "bob"], 2, ∅⟩

/-! ## Relationships -/

/-- What `GetRelationships` finds: ids and npids, in the order of the rows. -/
structure UserRelationships where
  friends : List (ℤ × String) := []
  friendRequestsSent : List (ℤ × String) := []
  friendRequestsReceived : List (ℤ × String) := []
  blocked : List (ℤ × String) := []

/-- One row of the user's, from its own point of view. -/
def UserRelationships.addRow (db : Database) (userId : ℤ) (result : UserRelationships)
    (row : (ℤ × ℤ) × UInt8 × UInt8) : UserRelationships :=
  let ((uid1, uid2), su1, su2) := row
  let (otherId, statusMe, statusOther) :=
    if uid1 = userId then (uid2, su1, su2) else (uid1, su2, su1)
  match getUsername db otherId with
  | none => result
  | some npid =>
    -- a blocked user may be listed as a friend or with a request as well
    let result :=
      if has statusMe FriendStatus.friend && has statusOther FriendStatus.friend then
        { result with friends := result.friends ++ [(otherId, npid)] }
      else if has statusMe FriendStatus.friend then
        { result with friendRequestsSent := result.friendRequestsSent ++ [(otherId, npid)] }
      else if has statusOther FriendStatus.friend then
        { result with friendRequestsReceived := result.friendRequestsReceived ++ [(otherId, npid)] }
      else result
    if has statusMe FriendStatus.blocked then
      { result with blocked := result.blocked ++ [(otherId, npid)] }
    else result

/-- The user's friends, requests sent and received, and blocks. All are empty if the query fails. -/
def getRelationships (db : Database) (userId : ℤ) (exec : Bool) : UserRelationships :=
  if !exec then {}
  else
    let rows := (db.friendship.inOrder .listed).filter fun row =>
      row.1.1 = userId ∨ row.1.2 = userId
    rows.foldl (UserRelationships.addRow db userId) {}

end ShadNet
