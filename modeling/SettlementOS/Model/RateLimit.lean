import Mathlib.Data.List.AList
import SettlementOS.Computation.Window
import SettlementOS.Model.Api
import SettlementOS.Model.Auth

/-!
# The rate limiter (`lib/rate-limit.ts`, `app/api/limits.ts`)

Hit times by key, pruned when the key is read, and swept once in a number of admitted requests.
Times are milliseconds.
-/

set_option autoImplicit false

namespace SettlementOS.Model.RateLimit

open SettlementOS.Computation

/-- `RateLimitOptions`, of a limit that lets someone in. -/
structure RateLimitOptions where
  limit : ℕ
  windowMs : ℤ
  limit_pos : 0 < limit

/-- `RateLimitDecision` -/
structure RateLimitDecision where
  allowed : Bool
  remaining : ℤ
  retryAfterSeconds : ℤ
  deriving DecidableEq, Repr

/-- The module's state: `hits`, each key's times with the oldest first, and `sinceSweep`. -/
structure Limiter (κ : Type) where
  hits : AList fun _ : κ => List ℤ
  sinceSweep : ℕ

/-- `SWEEP_EVERY` -/
def sweepEvery : ℕ := 500

/-- Seconds from milliseconds, rounded up: `Math.ceil(ms / 1000)`. -/
def secondsUp (ms : ℤ) : ℤ := -(-ms / 1000)

/-- The decision on a call at `now`, for the hits on its key in the window. -/
def decision (options : RateLimitOptions) (recent : List ℤ) (now : ℤ) : RateLimitDecision :=
  if h : options.limit ≤ recent.length then
    let oldest := recent.head (List.ne_nil_of_length_pos (options.limit_pos.trans_le h))
    { allowed := false
      remaining := 0
      retryAfterSeconds := max 1 (secondsUp (oldest + options.windowMs - now)) }
  else
    { allowed := true
      remaining := (options.limit : ℤ) - (recent ++ [now]).length
      retryAfterSeconds := 0 }

variable {κ : Type} [DecidableEq κ]

/-- Nothing is known of any key. -/
def Limiter.fresh : Limiter κ := ⟨∅, 0⟩

/-- `hits.get(key) ?? []` -/
def Limiter.timesAt (s : Limiter κ) (key : κ) : List ℤ := (s.hits.lookup key).getD []

/-- Whether the sweep drops a key with these times. -/
def stale (cutoff : ℤ) (times : List ℤ) : Bool :=
  match times.getLast? with
  | none => true
  | some t => decide (t ≤ cutoff)

/-- `sweep` -/
def sweep (now windowMs : ℤ) (s : Limiter κ) : Limiter κ :=
  if s.sinceSweep + 1 < sweepEvery then { s with sinceSweep := s.sinceSweep + 1 }
  else
    let cutoff := now - windowMs
    { hits := s.hits.entries.foldl
        (fun hits e => if stale cutoff e.2 then hits.erase e.1 else hits) s.hits
      sinceSweep := 0 }

/-- `consumeRateLimit`, with what is done to the store once a call is admitted. -/
def consumeWith (tidy : ℤ → ℤ → Limiter κ → Limiter κ) (options : RateLimitOptions) (key : κ)
    (now : ℤ) (s : Limiter κ) : RateLimitDecision × Limiter κ :=
  let cutoff := now - options.windowMs
  let recent := (s.timesAt key).filter (cutoff < ·)
  let d := decision options recent now
  if options.limit ≤ recent.length then (d, { s with hits := s.hits.insert key recent })
  else
    (d, tidy now options.windowMs { s with hits := s.hits.insert key (recent ++ [now]) })

/-- `consumeRateLimit` -/
def consumeRateLimit : RateLimitOptions → κ → ℤ → Limiter κ → RateLimitDecision × Limiter κ :=
  consumeWith sweep

/-- `consumeRateLimit` were the store never swept. -/
def consumeUnswept : RateLimitOptions → κ → ℤ → Limiter κ → RateLimitDecision × Limiter κ :=
  consumeWith fun _ _ s => s

/-- The calls one after the other, with their decisions. -/
def decided (consume : κ → ℤ → Limiter κ → RateLimitDecision × Limiter κ) (s : Limiter κ) :
    List (Hit κ) → List (Hit κ × RateLimitDecision)
  | [] => []
  | call :: calls =>
    let r := consume call.key call.time s
    (call, r.1) :: decided consume r.2 calls

/-! ## The requests -/

/-- `WRITE_RATE_LIMIT` -/
def writeRateLimit : ℕ := 30

/-- `RATE_LIMIT_WINDOW_MS` -/
def rateLimitWindowMs : ℤ := 60000

/-- `writeLimit`, by the environment's `RATE_LIMIT_WRITES_PER_MINUTE`. -/
def writeLimit (raw : Option String) : ℕ :=
  match raw with
  | none => writeRateLimit
  | some raw =>
    if raw = "" || !raw.toList.all Char.isDigit then writeRateLimit
    else if 0 < digitsValue raw.toList then digitsValue raw.toList else writeRateLimit

/-- The limit on writes is positive, however it is configured. -/
theorem writeLimit_pos (raw : Option String) : 0 < writeLimit raw := by
  unfold writeLimit
  split
  · decide
  · split_ifs with hempty hpos
    · decide
    · exact hpos
    · decide

/-- What writes are limited by. -/
def writeOptions (raw : Option String) : RateLimitOptions where
  limit := writeLimit raw
  windowMs := rateLimitWindowMs
  limit_pos := writeLimit_pos raw

/-- What the limiter reads of a request that writes. -/
structure WriteRequest where
  clientAddress : String
  principal : Option Principal
  now : ℤ

/-- `rateLimitKey` -/
def rateLimitKey (req : WriteRequest) : String :=
  match req.principal with
  | some p => s!"key:{p.keyId}"
  | none => s!"ip:{req.clientAddress}"

/-- `tooManyRequests`: the error, and its header `retry-after`. -/
def tooManyRequests (retryAfterSeconds : ℤ) : ApiErrorResult × String :=
  (apiError .rateLimited, toString retryAfterSeconds)

/-- `enforceWriteRateLimit` -/
def enforceWriteRateLimit (raw : Option String) (req : WriteRequest) (s : Limiter String) :
    Option (ApiErrorResult × String) × Limiter String :=
  let r := consumeRateLimit (writeOptions raw) (rateLimitKey req) req.now s
  (if r.1.allowed then none else some (tooManyRequests r.1.retryAfterSeconds), r.2)

/-- The requests one after the other, with the refusals. -/
def limited (raw : Option String) (s : Limiter String) :
    List WriteRequest → List (Option (ApiErrorResult × String))
  | [] => []
  | req :: reqs =>
    let r := enforceWriteRateLimit raw req s
    r.1 :: limited raw r.2 reqs

end SettlementOS.Model.RateLimit
