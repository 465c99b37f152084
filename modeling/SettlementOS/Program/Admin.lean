import SettlementOS.Model.Admin
import SettlementOS.Model.Markdown

/-!
# Signing in as the operator (`lib/admin-auth.ts`, `app/api/auth/`, `app/api/admin/password`)

The routes that hand out the session cookie, for a password or for a key, and the one that changes
the password. Any number of them run at once, served by deploys with environments of their own.
-/

set_option autoImplicit false

namespace SettlementOS.Program.Admin

open SettlementOS.Computation Model Model.Admin

/-- A computation on the rows. -/
abbrev Operation (α : Type) := Prog adminEffects AdminErr α

/-- A statement: it answers, or throws. -/
def call (o : AdminStmt) : Operation o.Result := .perform o fun r => Prog.ofExcept r

/-! ## `lib/admin-auth.ts` -/

/-- What `trim` takes off. -/
def isSpace (c : Char) : Bool :=
  if h : c.toNat < 2 ^ 16 then Markdown.isSpace ⟨c.toNat, h⟩ else false

/-- `trim` -/
@[irreducible] def trimString (s : String) : String :=
  String.ofList ((s.toList.dropWhile isSpace).rdropWhile isSpace)

/-- `isHex` -/
def isHex (value : String) : Bool := Hex.isHex value.toList

/-- `Buffer.from(value, "hex")` -/
def bufferFrom (value : String) : List UInt8 := Hex.decode value.toList

/-- `hashPassword` -/
def hashPassword (password : String) (salt : List UInt8) : Operation (Bytes KEY_LEN) :=
  call (.hashPassword password salt)

/-- `verifyPassword` -/
def verifyPassword (password hashHex saltHex : String) : Operation Bool :=
  if !isHex hashHex || !isHex saltHex then return false
  else
    let stored := bufferFrom hashHex
    let salt := bufferFrom saltHex
    if stored.length = 0 ∨ salt.length = 0 then return false
    else
      (do
        let computed ← hashPassword password salt
        if computed.bytes.length ≠ stored.length then return false
        else return decide (computed.bytes = stored) : Operation Bool).handle fun _ => .ret false

/-- `safeEqualString` -/
def safeEqualString (a b : String) : Bool := decide (a = b)

/-- `ensureAdminCredential` -/
def ensureAdminCredential (env : AdminEnv) : Operation (Option AdminCredential) := do
  match ← call .findFirst with
  | some existing => return some existing
  | none =>
    let username := trimString (env.adminUsername.getD "")
    -- the password is not trimmed
    let password := env.adminPassword.getD ""
    if username = "" ∨ password = "" then return none
    else
      let salt ← call .randomBytes
      let passwordHash ← hashPassword password salt.bytes
      (do
        let row ← call (.create ⟨ADMIN_CREDENTIAL_ID, username, passwordHash.hex, salt.hex⟩)
        return some row : Operation (Option AdminCredential)).handle fun _ =>
          -- somebody else has created it
          call .findFirst

/-- `verifyAdminLogin` -/
def verifyAdminLogin (username password : String) : Operation Bool := do
  match ← call .findFirst with
  | none =>
    let _ ← hashPassword password (List.replicate SALT_BYTES 0)
    return false
  | some cred =>
    let userOk := safeEqualString username cred.username
    let passOk ← verifyPassword password cred.passwordHash cred.salt
    return userOk && passOk

/-- The key that becomes the cookie, and whose it is. -/
structure OperatorSession where
  raw : String
  role : Role
  label : String
  deriving DecidableEq, Repr

/-- `resolveOperatorSessionKey` -/
def resolveOperatorSessionKey (env : AdminEnv) : Operation OperatorSession := do
  let raw := trimString (env.adminApiKey.getD "")
  if raw = "" then throw (.config "ADMIN_API_KEY is unset")
  else
    match ← call (.principalForKey raw) with
    | none => throw (.config "ADMIN_API_KEY does not resolve to an OPERATOR principal")
    | some principal =>
      if principal.role ≠ .operator then
        throw (.config "ADMIN_API_KEY does not resolve to an OPERATOR principal")
      else return ⟨raw, principal.role, principal.label⟩

/-! ## The routes -/

/-- What a route replies. -/
inductive Reply where
  | refused (error : ApiErrorResult)
  /-- the role and the label, and the key in the cookie -/
  | session (session : OperatorSession)
  | changed
  deriving DecidableEq

/-- `unauthorizedCredentials` -/
def unauthorizedCredentials : ApiErrorResult := apiError .unauthorized (some "invalid credentials")

/-- `misconfigured` -/
def misconfigured : ApiErrorResult :=
  apiError .internal (some "admin session is not configured")

/-- What `beginWrite` lets through. -/
def gated (rest : Operation Reply) : Operation Reply := do
  match ← call .beginWrite with
  | some refused => return .refused refused
  | none => rest

/-- A sign-in with a password. -/
def signIn (env : AdminEnv) (username password : String) : Operation Reply :=
  if username = "" ∨ password = "" then return .refused unauthorizedCredentials
  else do
    match ← ensureAdminCredential env with
    | none => return .refused misconfigured
    | some _ =>
      let ok ← verifyAdminLogin username password
      if !ok then return .refused unauthorizedCredentials
      else
        let session ← resolveOperatorSessionKey env
        return .session session

/-- The `catch` of a sign-in. -/
def signInFailed : AdminErr → ApiErrorResult
  | .config _ => misconfigured
  | .other _ => apiError .internal

/-- `POST /api/auth/session`, with the strings of its body. -/
def postSession (env : AdminEnv) (username password : Option String) : Operation Reply :=
  gated ((signIn env (trimString (username.getD "")) (password.getD "")).handle fun e =>
    .ret (.refused (signInFailed e)))

/-- Whose key it is, when one is presented. -/
def authenticate (raw : String) : Operation (Option Principal) :=
  if raw = "" then return none else call (.principalForKey raw)

/-- `POST /api/auth/login` -/
def postLogin (apiKey : Option String) : Operation Reply :=
  gated do
    let raw := trimString (apiKey.getD "")
    match ← authenticate raw with
    | none => return .refused (apiError .unauthorized (some "invalid api key"))
    | some principal => return .session ⟨raw, principal.role, principal.label⟩

/-- The event of a new password. -/
def passwordChanged (principal : Principal) : AuditRecord :=
  ⟨"admin.password_changed", actorOf principal, none, [("id", .str ADMIN_CREDENTIAL_ID)]⟩

/-- An operator changes the password. -/
def changePassword (principal : Principal) (currentPassword newPassword : String) :
    Operation Reply :=
  if newPassword = "" then return .refused (invalidRequest "new_password is required")
  else do
    match ← call (.findUnique ADMIN_CREDENTIAL_ID) with
    | none => return .refused misconfigured
    | some cred =>
      let currentOk ← verifyPassword currentPassword cred.passwordHash cred.salt
      if !currentOk then return .refused unauthorized
      else
        let salt ← call .randomBytes
        let passwordHash ← hashPassword newPassword salt.bytes
        call (.changePassword ADMIN_CREDENTIAL_ID passwordHash.hex salt.hex
          (passwordChanged principal))
        return .changed

/-- `POST /api/admin/password`, with the key the caller presents and the strings of its body. -/
def postPassword (key currentPassword newPassword : Option String) : Operation Reply := do
  match ← authenticate (key.getD "") with
  | none => return .refused unauthorized
  | some principal =>
    match requireRole principal [.operator] with
    | .error e => return .refused e
    | .ok () =>
      gated ((changePassword principal (currentPassword.getD "") (newPassword.getD "")).handle
        fun _ => .ret (.refused (apiError .internal)))

/-! ## The service -/

/-- The requests. -/
inductive Request where
  | session (username password : Option String)
  | login (apiKey : Option String)
  | password (key currentPassword newPassword : Option String)
  deriving DecidableEq, Repr

/-- The program of a request, in the environment of the deploy that serves it. -/
def serve (env : AdminEnv) : Request → Operation Reply
  | .session username password => postSession env username password
  | .login apiKey => postLogin apiKey
  | .password key currentPassword newPassword => postPassword key currentPassword newPassword

/-- The requests, interleaved; `env i` is the environment request `i` is served in. -/
@[reducible] def service (crypto : Crypto) (env : ℕ → AdminEnv) : Service where
  E := adminEffects
  State := AdminState
  Choice := AdminChoice
  exec _ o c s := some (exec crypto o c s)
  Outside := Outside
  outside := outside
  Request := Request
  Fault := AdminErr
  Result := Reply
  program i := serve (env i)

end SettlementOS.Program.Admin
