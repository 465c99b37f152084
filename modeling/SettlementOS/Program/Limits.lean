import SettlementOS.Model.RateLimit
import SettlementOS.Program.Admin

/-!
# The caller's address (`app/api/limits.ts`)

A write that comes without a principal is counted against an address. The header `x-forwarded-for`
holds what the client has put there and, behind it, what each of the proxies in front of the app has
seen; the environment says how many of them are the deploy's own.
-/

set_option autoImplicit false

namespace SettlementOS.Program.Limits

open SettlementOS.Computation Model Model.RateLimit Program.Admin

/-- `trustedProxyHops`, by the environment's `TRUSTED_PROXY_HOPS`. -/
def trustedProxyHops (raw : Option String) : ℕ :=
  match raw with
  | none => 0
  | some raw => if raw = "" || !raw.toList.all Char.isDigit then 0 else digitsValue raw.toList

/-- The addresses in `x-forwarded-for`. -/
def forwarded (header : Option String) : List String :=
  (((header.getD "").toList.splitOn ',').map fun v => trimString (String.ofList v)).filter (· ≠ "")

/-- `clientAddress`, by `TRUSTED_PROXY_HOPS` and the headers `x-forwarded-for` and `x-real-ip`. -/
def clientAddress (raw header realIp : Option String) : String :=
  let addresses := forwarded header
  let hops := trustedProxyHops raw
  if h : 0 < hops ∧ hops ≤ addresses.length then addresses[addresses.length - hops]
  else
    match addresses with
    | first :: _ => first
    | [] => if realIp.getD "" = "" then "unknown" else realIp.getD ""

/-! ## On the way to the app -/

/-- An address, as a proxy writes it: not empty, and without commas and blanks. -/
structure SeenAddress where
  text : String
  nonempty : text ≠ ""
  plain : text.toList.all (fun c => c != ',' && !isSpace c) = true

/-- What a proxy makes of the header. -/
def appended (header : Option String) (seen : SeenAddress) : Option String :=
  match header with
  | none => some seen.text
  | some before => some (before ++ ", " ++ seen.text)

/-- A write on its way: the headers its client sends, and what the deploy's proxies see, first the
outermost. -/
structure Arrival where
  forwardedFor : Option String
  realIp : Option String
  outermost : SeenAddress
  inner : List SeenAddress
  principal : Option Principal
  now : ℤ

/-- The header at the app. -/
def Arrival.header (a : Arrival) : Option String :=
  a.inner.foldl appended (appended a.forwardedFor a.outermost)

/-- What the limiter reads. -/
def Arrival.request (hops : Option String) (a : Arrival) : WriteRequest where
  clientAddress := clientAddress hops a.header a.realIp
  principal := a.principal
  now := a.now

/-- Whom a write is counted against. -/
inductive Subject where
  | key (keyId : String)
  | ip (address : String)
  deriving DecidableEq, Repr

/-- The key, or the address that the outermost proxy has seen. -/
def Arrival.subject (a : Arrival) : Subject :=
  match a.principal with
  | some p => .key p.keyId
  | none => .ip a.outermost.text

/-- The key of a subject. -/
def Subject.text : Subject → String
  | .key keyId => "key:" ++ keyId
  | .ip address => "ip:" ++ address

end SettlementOS.Program.Limits
