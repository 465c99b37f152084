import SettlementOS.Computation.Hex
import SettlementOS.Computation.Service
import SettlementOS.Model.Auth
import SettlementOS.Model.Payment

/-!
# The admin credential (`lib/admin-auth.ts`, `prisma/schema.prisma`)

One row holds the operator's username and what scrypt makes of the password with a salt of its
own. Next to it are the API keys, one of which a sign-in hands out, and the audit log. A statement
may fail before it took effect or after. scrypt and the hash of a key are `Crypto`'s; what the
process environment says may change with every deploy.

Creation and update times are left out.
-/

set_option autoImplicit false

namespace SettlementOS.Model.Admin

open SettlementOS.Computation

/-- `ADMIN_CREDENTIAL_ID` -/
def ADMIN_CREDENTIAL_ID : String := "admin"

/-- `SALT_BYTES` -/
def SALT_BYTES : ℕ := 16

/-- `KEY_LEN` -/
def KEY_LEN : ℕ := 64

/-- So many bytes. -/
structure Bytes (n : ℕ) where
  bytes : List UInt8
  length : bytes.length = n

/-- `toString("hex")` -/
def Bytes.hex {n : ℕ} (b : Bytes n) : String := String.ofList (Hex.encode b.bytes)

/-- The two functions of the crypto library. -/
structure Crypto where
  /-- `scrypt` of a password and a salt, to `KEY_LEN` bytes at the pinned cost -/
  scrypt : String → List UInt8 → Bytes KEY_LEN
  /-- `hashKey` -/
  hashKey : String → String

/-- What the process environment of a deploy says. -/
structure AdminEnv where
  /-- `ADMIN_USERNAME` -/
  adminUsername : Option String := none
  /-- `ADMIN_PASSWORD` -/
  adminPassword : Option String := none
  /-- `ADMIN_API_KEY` -/
  adminApiKey : Option String := none

/-! ## Rows -/

/-- `AdminCredential` -/
structure AdminCredential where
  id : String
  username : String
  passwordHash : String
  salt : String
  deriving DecidableEq, Repr

/-- The rows. -/
structure AdminState where
  credentials : List AdminCredential
  apiKeys : List ApiKey
  /-- the audit events, oldest first -/
  events : List AuditRecord

/-- What is thrown. -/
inductive AdminErr where
  /-- `AdminAuthConfigError` -/
  | config (message : String)
  | other (message : String)
  deriving DecidableEq, Repr

/-! ## Statements -/

/-- The statements. -/
inductive AdminStmt where
  /-- `beginWrite`, which may refuse -/
  | beginWrite
  /-- `adminCredential.findFirst` -/
  | findFirst
  /-- `adminCredential.findUnique` -/
  | findUnique (id : String)
  /-- `adminCredential.create` -/
  | create (row : AdminCredential)
  /-- the transaction that updates a password, with its event -/
  | changePassword (id passwordHash salt : String) (record : AuditRecord)
  | principalForKey (raw : String)
  | hashPassword (password : String) (salt : List UInt8)
  /-- `randomBytes(SALT_BYTES)` -/
  | randomBytes
  deriving DecidableEq

/-- What a statement that succeeds answers. -/
@[reducible] def AdminStmt.Result : AdminStmt → Type
  | .beginWrite => Option ApiErrorResult
  | .findFirst => Option AdminCredential
  | .findUnique _ => Option AdminCredential
  | .create _ => AdminCredential
  | .changePassword .. => Unit
  | .principalForKey _ => Option Principal
  | .hashPassword .. => Bytes KEY_LEN
  | .randomBytes => Bytes SALT_BYTES

/-- The statements and their answers. -/
@[reducible] def adminEffects : Effects where
  Stmt := AdminStmt
  Answer o := Except AdminErr o.Result

/-- What the outside decides about one statement. -/
structure AdminChoice where
  /-- it fails and takes no effect -/
  fails : Option String := none
  /-- it takes effect, and its caller is told otherwise -/
  unconfirmed : Option String := none
  /-- the reply of `beginWrite`, when it refuses -/
  refused : Option ApiErrorResult := none
  /-- the random bytes -/
  salt : Bytes SALT_BYTES := ⟨List.replicate SALT_BYTES 0, rfl⟩

/-- What a statement does and answers. -/
def perform (crypto : Crypto) :
    (o : AdminStmt) → AdminChoice → AdminState → Except AdminErr o.Result × AdminState
  | .beginWrite, c, s => (.ok c.refused, s)
  | .findFirst, _, s => (.ok s.credentials.head?, s)
  | .findUnique id, _, s => (.ok (s.credentials.find? fun row => row.id = id), s)
  | .create row, _, s =>
    -- the primary key, and the unique key on the username
    if s.credentials.any fun old => old.id = row.id ∨ old.username = row.username then
      (.error (.other "Unique constraint failed"), s)
    else (.ok row, { s with credentials := s.credentials ++ [row] })
  | .changePassword id passwordHash salt record, _, s =>
    if s.credentials.any fun row => row.id = id then
      (.ok (), { s with
        credentials := s.credentials.map fun row =>
          if row.id = id then { row with passwordHash := passwordHash, salt := salt } else row
        events := s.events ++ [record] })
    else (.error (.other "No record was found for an update"), s)
  | .principalForKey raw, _, s => (.ok (principalForKey s.apiKeys (crypto.hashKey raw)), s)
  | .hashPassword password salt, _, s => (.ok (crypto.scrypt password salt), s)
  | .randomBytes, c, s => (.ok c.salt, s)

/-- A statement, as it goes. -/
def exec (crypto : Crypto) (o : AdminStmt) (c : AdminChoice) (s : AdminState) :
    Except AdminErr o.Result × AdminState :=
  match c.fails, c.unconfirmed with
  | some message, _ => (.error (.other message), s)
  | none, some message => (.error (.other message), (perform crypto o c s).2)
  | none, none => perform crypto o c s

/-- What others do. -/
inductive Outside where
  /-- the keys are seeded again -/
  | apiKeys (rows : List ApiKey)
  /-- an event of something else is written -/
  | audit (record : AuditRecord)

/-- What it does. -/
def outside : Outside → AdminState → Option AdminState
  | .apiKeys rows, s => some { s with apiKeys := rows }
  | .audit record, s => some { s with events := s.events ++ [record] }

/-! ## What a password is checked by -/

/-- A password and the row it opens. -/
def Opens (crypto : Crypto) (password : String) (row : AdminCredential) : Prop :=
  Hex.isHex row.passwordHash.toList = true ∧ Hex.isHex row.salt.toList = true ∧
    (crypto.scrypt password (Hex.decode row.salt.toList)).bytes =
      Hex.decode row.passwordHash.toList

/-- What is stored of a password is opened by it. -/
theorem opens_of_stored {crypto : Crypto} {password : String} {salt : Bytes SALT_BYTES}
    {row : AdminCredential} (hhash : row.passwordHash = (crypto.scrypt password salt.bytes).hex)
    (hsalt : row.salt = salt.hex) : Opens crypto password row := by
  have hnonempty : ∀ {n : ℕ} (b : Bytes n), 0 < n → b.bytes ≠ [] := by
    intro n b hn hempty
    have hlength := b.length
    rw [hempty] at hlength
    exact absurd hlength (Nat.ne_of_lt hn)
  unfold Opens
  rw [hhash, hsalt, Bytes.hex, Bytes.hex, String.toList_ofList, String.toList_ofList]
  exact ⟨Hex.isHex_encode (hnonempty _ (by decide)), Hex.isHex_encode (hnonempty _ (by decide)),
    by rw [Hex.decode_encode, Hex.decode_encode]⟩

end SettlementOS.Model.Admin
