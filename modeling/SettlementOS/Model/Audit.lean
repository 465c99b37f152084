import Mathlib.Data.List.Sort
import SettlementOS.Model.Payment

/-!
# The audit log (`lib/audit.ts`)

The rows of the log and of its checkpoints, what an event's hash covers, what a checkpoint's
signature covers, and the verification of the chain. SHA-256 and HMAC are the two functions
`AuditEnv` carries; nothing here depends on what they compute.

An event's detail is the text `JSON.stringify` makes of an object (`Detail.stringify`).

The rows are over the type of their ids: the counter of a table gives naturals, while a column
holds any integer that was put there.
-/

set_option autoImplicit false

namespace SettlementOS.Model

/-! ## Rows -/

/-- `AuditEvent`: the row, but for its creation time. -/
structure AuditEvent (I : Type := ℕ) where
  id : I
  paymentId : Option String
  actor : String
  action : String
  detail : String
  prevHash : String
  hash : String
  deriving DecidableEq, Repr

/-- `AuditCheckpoint`: the row, but for its creation time. -/
structure AuditCheckpoint (I : Type := ℕ) where
  id : I
  lastEventId : I
  chainHash : String
  signature : String
  deriving DecidableEq, Repr

/-- What an event is hashed with, next to the hash before it. -/
structure EventFields where
  action : String
  actor : String
  paymentId : Option String
  detail : String
  deriving DecidableEq, Repr

/-- The fields of a row. -/
def AuditEvent.fields {I : Type} (e : AuditEvent I) : EventFields :=
  ⟨e.action, e.actor, e.paymentId, e.detail⟩

/-- What the log is kept with: the two hash functions, the process environment, and the texts of
values this development does not spell out. -/
structure AuditEnv where
  /-- the hex digest of SHA-256 -/
  sha256 : String → String
  /-- the hex digest of HMAC-SHA-256, of a key and a message -/
  hmacSha256 : String → String → String
  /-- `AUDIT_ANCHOR_KEY` -/
  auditAnchorKey : Option String := none
  /-- `Number(AUDIT_CHECKPOINT_INTERVAL)`, when that is an integer -/
  auditCheckpointInterval : Option ℤ := none
  /-- `SETTLEMENTOS_SKIP_AUDIT_CHAIN_LOCK` -/
  skipAuditChainLock : Option String := none
  /-- a transaction's hash as a hex string -/
  hashText : Hash → String
  /-- the text of a `quoteJson` column -/
  quoteText : List RouteOption → String
  /-- the text of a `feeJson` column -/
  feeText : FeeBreakdown → String

namespace AuditEnv

variable (env : AuditEnv)

/-- `anchorKey`. -/
def anchorKey : Option String := env.auditAnchorKey.filter (· ≠ "")

/-- `checkpointInterval`. -/
def checkpointInterval : ℕ :=
  match env.auditCheckpointInterval with
  | some n => if 0 < n then n.toNat else 100
  | none => 100

/-- There is room between two checkpoints. -/
theorem checkpointInterval_pos : 0 < env.checkpointInterval := by
  unfold checkpointInterval
  split
  · split
    · omega
    · decide
  · decide

/-! ## JSON -/

/-- How a string's character is spelled. -/
def jsonEscape (c : Char) : List Char :=
  match c.toNat with
  | 8 => "\\b".toList
  | 9 => "\\t".toList
  | 10 => "\\n".toList
  | 12 => "\\f".toList
  | 13 => "\\r".toList
  | 34 => "\\\"".toList
  | 92 => "\\\\".toList
  | n => if n < 32 then "\\u00".toList ++ [Nat.digitChar (n / 16), Nat.digitChar (n % 16)] else [c]

/-- `JSON.stringify` of a string. -/
def jsonString (s : String) : String :=
  "\"" ++ String.ofList (s.toList.flatMap jsonEscape) ++ "\""

/-- `JSON.stringify` of a value of a detail. -/
def stringify : Json → String
  | .null => "null"
  | .str s => jsonString s
  | .num n => toString n
  | .hash h => jsonString (env.hashText h)
  | .strs l => "[" ++ ",".intercalate (l.map jsonString) ++ "]"
  | .routes l => jsonString (env.quoteText l)
  | .fees f => jsonString (env.feeText f)

/-- One key of an object with its value. -/
def stringifyEntry (kv : String × Json) : String := jsonString kv.1 ++ ":" ++ env.stringify kv.2

/-- `JSON.stringify` of a detail. -/
def stringifyDetail (d : Detail) : String :=
  "\x7b" ++ ",".intercalate (d.map env.stringifyEntry) ++ "\x7d"

/-! ## Hashes and signatures -/

/-- What `hashEvent` digests. -/
def preimage (prevHash : String) (e : EventFields) : String :=
  let paymentId := e.paymentId.getD ""
  s!"{prevHash}|{e.action}|{e.actor}|{paymentId}|{e.detail}"

/-- `hashEvent`. -/
def hashEvent (prevHash : String) (e : EventFields) : String := env.sha256 (preimage prevHash e)

/-- `signAnchor`. -/
def signAnchor {I : Type} [ToString I] (lastEventId : I) (chainHash key : String) : String :=
  env.hmacSha256 key s!"{lastEventId}|{chainHash}"

end AuditEnv

/-- `signatureMatches`. -/
def signatureMatches (expected actual : String) : Bool := expected == actual

/-! ## The tables as they are read -/

section Reads

variable {I : Type} [LinearOrder I]

/-- `orderBy: { id: "asc" }`. -/
def eventsById (events : List (AuditEvent I)) : List (AuditEvent I) :=
  events.insertionSort fun e e' => e.id ≤ e'.id

/-- `auditEvent.findMany`, after an id. -/
def findEvents (events : List (AuditEvent I)) (afterId : I) : List (AuditEvent I) :=
  eventsById (events.filter fun e => afterId < e.id)

/-- `auditEvent.findFirst`, the last by id. -/
def lastEvent (events : List (AuditEvent I)) : Option (AuditEvent I) := (eventsById events).getLast?

/-- `auditEvent.findUnique`. -/
def findEvent (events : List (AuditEvent I)) (id : I) : Option (AuditEvent I) :=
  events.find? fun e => e.id = id

/-- `auditEvent.count`, after an id. -/
def countEvents (events : List (AuditEvent I)) (afterId : I) : ℕ :=
  events.countP fun e => afterId < e.id

/-- `auditCheckpoint.findFirst`, the last by id. -/
def lastCheckpoint (checkpoints : List (AuditCheckpoint I)) : Option (AuditCheckpoint I) :=
  (checkpoints.insertionSort fun c c' => c.id ≤ c'.id).getLast?

end Reads

/-! ## Verification -/

section Verification

variable {I : Type}

/-- What `verifyFrom` returns. -/
structure ChainCheck (I : Type := ℕ) where
  valid : Bool
  brokenAtId : Option I := none
  eventsVerified : ℕ
  deriving DecidableEq, Repr

/-- The loop of `verifyFrom`: the first event that does not verify. -/
def AuditEnv.firstBroken (env : AuditEnv) (prevHash : String) :
    List (AuditEvent I) → Option (AuditEvent I)
  | [] => none
  | e :: events =>
    if e.prevHash ≠ prevHash ∨ e.hash ≠ env.hashEvent prevHash e.fields then some e
    else env.firstBroken e.hash events

/-- `verifyFrom`, on the events it was given. -/
def AuditEnv.checkChain (env : AuditEnv) (prevHash : String) (events : List (AuditEvent I)) :
    ChainCheck I :=
  match env.firstBroken prevHash events with
  | some e => { valid := false, brokenAtId := some e.id, eventsVerified := events.length }
  | none => { valid := true, eventsVerified := events.length }

/-- `AuditIntegrity`; its mode is always "full". -/
structure AuditIntegrity (I : Type := ℕ) where
  valid : Bool
  brokenAtId : Option I := none
  reason : Option String := none
  anchored : Bool
  /-- the checkpoint's id and the event it anchors -/
  checkpoint : Option (I × I)
  eventsVerified : ℕ
  deriving DecidableEq, Repr

/-- `verifyAuditChain`, by how the tables are read: `findMany`, `findFirst` and `findUnique` may be
statements of a program, or reads of tables at rest. -/
def AuditEnv.verifyAuditChain [ToString I] [OfNat I 0] (env : AuditEnv) {M : Type → Type} [Monad M]
    (findMany : I → M (List (AuditEvent I))) (findFirst : M (Option (AuditCheckpoint I)))
    (findUnique : I → M (Option (AuditEvent I))) : M (AuditIntegrity I) := do
  let events ← findMany 0
  let full := env.checkChain "GENESIS" events
  match env.anchorKey with
  | none => return ⟨full.valid, full.brokenAtId, none, false, none, full.eventsVerified⟩
  | some key =>
    match ← findFirst with
    | none => return ⟨full.valid, full.brokenAtId, none, true, none, full.eventsVerified⟩
    | some checkpoint =>
      let anchor := some (checkpoint.id, checkpoint.lastEventId)
      if !full.valid then
        return ⟨false, full.brokenAtId, none, true, anchor, full.eventsVerified⟩
      else if !signatureMatches (env.signAnchor checkpoint.lastEventId checkpoint.chainHash key)
          checkpoint.signature then
        return ⟨false, none, some "checkpoint_signature_mismatch", true, anchor,
          full.eventsVerified⟩
      else
        match ← findUnique checkpoint.lastEventId with
        | none =>
          return ⟨false, none, some "checkpoint_anchor_missing", true, anchor, full.eventsVerified⟩
        | some anchorEvent =>
          if anchorEvent.hash ≠ checkpoint.chainHash then
            return ⟨false, some anchorEvent.id, some "checkpoint_chain_hash_mismatch", true,
              anchor, full.eventsVerified⟩
          else return ⟨true, none, none, true, anchor, full.eventsVerified⟩

end Verification

end SettlementOS.Model
