import Mathlib.Algebra.Ring.Nat
import Mathlib.Data.List.TakeWhile
import Mathlib.Tactic.Common

/-!
# Money, assets and errors (`lib/money.ts`, `lib/assets.ts`, `lib/api-errors.ts`)

Amounts are decimal strings at the edges of the program and integers inside. Two parsers
turn one into the other: `parseScaledUnits` accepts the canonical grammar only, at most
fifteen integer digits and no more decimals than the scale has; `toBaseUnits` truncates
and is meant for amounts that have been accepted before.

The errors the program throws are collected in `Err`, one constructor for each class.
-/

set_option autoImplicit false

namespace SettlementOS.Model

/-- `ApiErrorCode`. -/
inductive ApiErrorCode where
  | unauthorized
  | forbidden
  | notFound
  | invalidRequest
  | conflict
  | idempotencyConflict
  | payloadTooLarge
  | rateLimited
  | executionFailed
  | internal
  deriving DecidableEq, Repr

/-- `MoneyErrorCode`. -/
inductive MoneyErrorCode where
  | invalidFormat
  | excessPrecision
  | tooLarge
  | notPositive
  | unsupportedCurrency
  deriving DecidableEq, Repr

/-- `TreasuryErrorCode`. -/
inductive TreasuryErrorCode where
  | noFund
  | unsupportedAsset
  | invalidAmount
  | invalidRate
  | insufficientFreeBalance
  | notEligible
  | positionNotFound
  | positionNotActive
  deriving DecidableEq, Repr

/-- `AuditAnchorError.code`. -/
inductive AuditAnchorErrorCode where
  | notConfigured
  | noEvents
  deriving DecidableEq, Repr

/-- What the program throws. -/
inductive Err where
  /-- a plain `Error`, or one the language raises -/
  | error (message : String)
  /-- `ApiError` -/
  | api (code : ApiErrorCode) (message : String)
  /-- `ExecutionLeaseError` -/
  | executionLease (paymentId : String)
  /-- `StaleTransitionError` -/
  | staleTransition (paymentId : String)
  /-- `MoneyError` -/
  | money (code : MoneyErrorCode) (message : String)
  /-- `TreasuryError` -/
  | treasury (code : TreasuryErrorCode) (message : String)
  /-- `AuditAnchorError` -/
  | auditAnchor (code : AuditAnchorErrorCode) (message : String)
  /-- a statement the database did not carry out -/
  | database (message : String)
  /-- a call a node did not answer, or refused -/
  | node (message : String)
  deriving DecidableEq, Repr

/-- `err.message`. -/
def Err.message : Err → String
  | .error message => message
  | .api _ message => message
  | .executionLease _ => "payment is already being executed"
  | .staleTransition _ => "payment status changed while the request was in flight"
  | .money _ message => message
  | .treasury _ message => message
  | .auditAnchor _ message => message
  | .database message => message
  | .node message => message

/-- The `conflict` an operation answers with. -/
def conflict (message : String) : Err := .api .conflict message

/-! ## Currencies and assets -/

/-- `AssetSymbol`. -/
inductive AssetSymbol where
  | mockUSDC
  | mockJPY
  | mockSGD
  deriving DecidableEq, Repr

/-- The symbol as the rows and the events spell it. -/
def AssetSymbol.name : AssetSymbol → String
  | .mockUSDC => "mockUSDC"
  | .mockJPY => "mockJPY"
  | .mockSGD => "mockSGD"

/-- `AssetInfo`, the fields the program reads. -/
structure AssetInfo where
  symbol : AssetSymbol
  currency : String
  decimals : ℕ
  deriving DecidableEq, Repr

/-- `ASSETS`. -/
def assets : AssetSymbol → AssetInfo
  | .mockUSDC => ⟨.mockUSDC, "USD", 6⟩
  | .mockJPY => ⟨.mockJPY, "JPY", 0⟩
  | .mockSGD => ⟨.mockSGD, "SGD", 6⟩

/-- `CURRENCY_TO_ASSET`. -/
def currencyToAsset (currency : String) : Option AssetSymbol :=
  if currency = "USD" then some .mockUSDC
  else if currency = "JPY" then some .mockJPY
  else if currency = "SGD" then some .mockSGD
  else none

/-- `assetForCurrency`. -/
def assetForCurrency (currency : String) : Except Err AssetInfo :=
  match currencyToAsset currency with
  | some symbol => .ok (assets symbol)
  | none => .error (.error s!"No settlement asset for currency {currency}")

/-- `CURRENCY_DECIMALS`. -/
def currencyDecimalsTable (currency : String) : Option ℕ :=
  if currency = "USD" then some 2
  else if currency = "JPY" then some 0
  else if currency = "SGD" then some 2
  else none

/-- `currencyDecimals`. -/
def currencyDecimals (currency : String) : Except Err ℕ :=
  match currencyDecimalsTable currency with
  | some decimals => .ok decimals
  | none => .error (.money .unsupportedCurrency s!"unsupported currency: {currency}")

/-! ## Decimal strings -/

/-- The number a list of decimal digits writes. -/
def digitsValue (digits : List Char) : ℕ :=
  digits.foldl (fun n c => 10 * n + (c.toNat - 48)) 0

/-- `/^[0-9]+(\.[0-9]+)?$/`. -/
def canonicalDecimal (value : List Char) : Bool :=
  !(value.takeWhile Char.isDigit).isEmpty &&
    match value.dropWhile Char.isDigit with
    | [] => true
    | c :: frac => c == '.' && !frac.isEmpty && frac.all Char.isDigit

/-- `value.split(".")`, its first two parts. -/
def splitPoint (value : List Char) : List Char × List Char :=
  (value.takeWhile (· ≠ '.'), ((value.dropWhile (· ≠ '.')).drop 1).takeWhile (· ≠ '.'))

/-- `MAX_INTEGER_DIGITS`. -/
def maxIntegerDigits : ℕ := 15

/-- `parseScaledUnits`. The last argument is the excess-precision message where the caller
has a better one. -/
def parseScaledUnits (value : String) (decimals : ℕ) (what : String)
    (excessPrecision : Option String) : Except Err ℕ :=
  if !canonicalDecimal value.toList then
    .error (.money .invalidFormat
      s!"{what} must be a plain decimal string, e.g. \"25000.00\" — no sign, exponent, or spaces")
  else
    let parts := splitPoint value.toList
    let whole := parts.1
    let frac := parts.2
    if maxIntegerDigits < whole.length then
      .error (.money .tooLarge s!"{what} may have at most {maxIntegerDigits} integer digits")
    else if decimals < frac.length then
      .error (.money .excessPrecision (excessPrecision.getD
        (if decimals = 0 then s!"{what} must be a whole number"
          else s!"{what} allows at most {decimals} decimal places")))
    else
      .ok (digitsValue whole * 10 ^ decimals +
        digitsValue (frac ++ List.replicate (decimals - frac.length) '0'))

/-- `parseAmount`. -/
def parseAmount (amount currency : String) : Except Err ℕ := do
  let decimals ← currencyDecimals currency
  let units ← parseScaledUnits amount decimals "amount"
    (some (if decimals = 0 then s!"{currency} amounts must be whole numbers"
      else s!"{currency} amounts allow at most {decimals} decimal places"))
  if units = 0 then throw (.money .notPositive "amount must be greater than zero")
  return units

/-- The decimal digits of a number. -/
def digitsOf (n : ℕ) : List Char := (toString n).toList

/-- `formatScaledUnits`. -/
def formatScaledUnits (units decimals : ℕ) : String :=
  if decimals = 0 then toString units
  else
    let digits := digitsOf units
    let padded := List.replicate (decimals + 1 - digits.length) '0' ++ digits
    String.ofList (padded.take (padded.length - decimals)) ++ "." ++
      String.ofList (padded.drop (padded.length - decimals))

/-- `formatMinorUnits`. -/
def formatMinorUnits (units : ℕ) (currency : String) : Except Err String :=
  (currencyDecimals currency).map (formatScaledUnits units)

/-- `canonicalAmount`. -/
def canonicalAmount (amount currency : String) : Except Err String := do
  let units ← parseAmount amount currency
  formatMinorUnits units currency

/-- `fromBaseUnits`: no trailing zeros, and no point when nothing follows it. -/
def fromBaseUnits (amount decimals : ℕ) : String :=
  if decimals = 0 then toString amount
  else
    let digits := digitsOf amount
    let padded := List.replicate (decimals + 1 - digits.length) '0' ++ digits
    let whole := padded.take (padded.length - decimals)
    let frac := ((padded.drop (padded.length - decimals)).reverse.dropWhile (· = '0')).reverse
    if frac.isEmpty then String.ofList whole
    else String.ofList whole ++ "." ++ String.ofList frac

/-- `BigInt(s || "0")` on a string of digits. Signs, blanks and prefixed literals are thrown
on: what reaches this function has been accepted by `parseScaledUnits`. -/
def bigInt (s : List Char) : Except Err ℕ :=
  if s.all Char.isDigit then .ok (digitsValue s)
  else .error (.error s!"Cannot convert {String.ofList s} to a BigInt")

/-- `amount.trim()`. -/
def trim (s : List Char) : List Char :=
  ((s.dropWhile Char.isWhitespace).reverse.dropWhile Char.isWhitespace).reverse

/-- `toBaseUnits`. -/
def toBaseUnits (amount : String) (decimals : ℕ) : Except Err ℕ := do
  let parts := splitPoint (trim amount.toList)
  let fracPadded := (parts.2 ++ List.replicate decimals '0').take decimals
  let whole ← bigInt parts.1
  let frac ← bigInt fracPadded
  return whole * 10 ^ decimals + frac

/-- `destinationUnits`. -/
def destinationUnits (amount : String) (decimals : ℕ) : Except Err ℕ :=
  parseScaledUnits amount decimals "destination amount" none

/-! ## Accepted amounts -/

/-- A canonical decimal has digits in it, and a point. -/
theorem mem_canonicalDecimal {value : List Char} (h : canonicalDecimal value = true) {c : Char}
    (hc : c ∈ value) : c.isDigit = true ∨ c = '.' := by
  rw [← List.takeWhile_append_dropWhile (p := Char.isDigit) (l := value)] at hc
  rcases List.mem_append.mp hc with hc | hc
  · exact .inl (List.mem_takeWhile_imp hc)
  · simp only [canonicalDecimal, Bool.and_eq_true] at h
    cases hd : value.dropWhile Char.isDigit with
    | nil => simp [hd] at hc
    | cons point frac =>
      simp only [hd, Bool.and_eq_true, beq_iff_eq, List.all_eq_true] at h hc
      rcases List.mem_cons.mp hc with rfl | hc
      · exact .inr h.2.1.1
      · exact .inl (h.2.2 c hc)

/-- Trimming only takes away. -/
theorem mem_of_mem_trim {s : List Char} {c : Char} (h : c ∈ trim s) : c ∈ s := by
  have h := (List.dropWhile_suffix _).subset (List.mem_reverse.mp h)
  exact (List.dropWhile_suffix _).subset (List.mem_reverse.mp h)

/-- The two parts of a decimal string have no point in them. -/
theorem mem_splitPoint {value : List Char} {c : Char}
    (h : c ∈ (splitPoint value).1 ∨ c ∈ (splitPoint value).2) : c ∈ value ∧ c ≠ '.' := by
  rcases h with h | h
  · exact ⟨(List.takeWhile_prefix _).subset h, by simpa using List.mem_takeWhile_imp h⟩
  · refine ⟨?_, by simpa using List.mem_takeWhile_imp h⟩
    exact (List.dropWhile_suffix _).subset
      ((List.drop_suffix _ _).subset ((List.takeWhile_prefix _).subset h))

/-- A text of digits is read as the number they write. -/
theorem bigInt_ok {s : List Char} (h : ∀ c ∈ s, c.isDigit = true) :
    bigInt s = .ok (digitsValue s) := by
  simp [bigInt, List.all_eq_true.mpr h]

/-- `toBaseUnits` reads every canonical decimal, at every scale. -/
theorem toBaseUnits_ok {amount : String} (h : canonicalDecimal amount.toList = true)
    (decimals : ℕ) : ∃ units, toBaseUnits amount decimals = .ok units := by
  have hdigit : ∀ c, c ∈ (splitPoint (trim amount.toList)).1 ∨
      c ∈ (splitPoint (trim amount.toList)).2 → c.isDigit = true := by
    intro c hc
    obtain ⟨hmem, hne⟩ := mem_splitPoint hc
    exact (mem_canonicalDecimal h (mem_of_mem_trim hmem)).resolve_right hne
  have hfrac : ∀ c ∈ ((splitPoint (trim amount.toList)).2 ++ List.replicate decimals '0').take
      decimals, c.isDigit = true := by
    intro c hc
    rcases List.mem_append.mp (List.mem_of_mem_take hc) with hc | hc
    · exact hdigit c (.inr hc)
    · rw [List.eq_of_mem_replicate hc]
      decide
  simp only [toBaseUnits, bigInt_ok fun c hc => hdigit c (.inl hc), bigInt_ok hfrac, bind,
    Except.bind]
  exact ⟨_, rfl⟩

/-- What `parseAmount` accepts, `toBaseUnits` reads. -/
theorem toBaseUnits_of_parseAmount {amount currency : String} {units : ℕ}
    (h : parseAmount amount currency = .ok units) (decimals : ℕ) :
    ∃ units, toBaseUnits amount decimals = .ok units := by
  refine toBaseUnits_ok ?_ decimals
  by_contra hc
  rw [Bool.not_eq_true] at hc
  unfold parseAmount at h
  cases hd : currencyDecimals currency with
  | error e => simp [hd, bind, Except.bind] at h
  | ok d => simp [hd, parseScaledUnits, hc, bind, Except.bind] at h

end SettlementOS.Model
