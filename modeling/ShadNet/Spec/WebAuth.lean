import ShadNet.Spec.Stun
import ShadNet.Spec.WebSession

/-!
# Bearer tokens

The Web API knows a client by the token of its account, which the game connection is told by `GetToken`.
-/

namespace ShadNet

/-- What tokens are made of. -/
def tokenChars : List Char :=
  "ABCDEFGHIJKLMNOPQRSTUVWXYZabcdefghijklmnopqrstuvwxyz0123456789".toList

/-- `GenerateToken`, from the numbers that are drawn. -/
def generateToken (draws : List ℕ) : String :=
  String.ofList ((draws.take 16).map fun n => tokenChars.getD (n % tokenChars.length) 'A')

/-- The code of the error for a token that leads to nobody. -/
def errInvalidToken : ℕ := 0x80920001

/-- The code of the error for a header that is missing or has another form. -/
def errInvalidHeader : ℕ := 0x80920002

/-- What stands before the token in the header. -/
def bearerPrefix : String := "Bearer "

/-- `startsWith(bearerPrefix, Qt::CaseInsensitive)`. -/
def startsWithBearer (qt : Qt) (s : String) : Bool :=
  qt.eqNoCase (String.ofList (s.toList.take bearerPrefix.length)) bearerPrefix

/-- `Authenticate`: `rawAuth` is the header, and `exec` says whether the query runs. -/
def authenticate (qt : Qt) (db : Database) (exec : Bool) (rawAuth : List UInt8) :
    Except Response AuthResult :=
  if rawAuth = [] then
    .error (jsonError .unauthorized errInvalidHeader "Missing Authorization header")
  else
    let authStr := qt.trimmed (fromUtf8 rawAuth)
    if !startsWithBearer qt authStr then
      .error (jsonError .unauthorized errInvalidHeader "Authorization scheme must be Bearer")
    else
      let token := qt.trimmed (String.ofList (authStr.toList.drop bearerPrefix.length))
      if token = "" then .error (jsonError .unauthorized errInvalidHeader "Empty bearer token")
      else if !exec then
        .error (jsonError .internalServerError errInvalidToken "Auth lookup failed")
      else
        match db.accounts.find? fun a => a.token = token with
        | none => .error (jsonError .unauthorized errInvalidToken "Invalid bearer token")
        | some a => .ok ⟨a.userId, a.username⟩

end ShadNet
