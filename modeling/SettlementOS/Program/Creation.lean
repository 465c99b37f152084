import SettlementOS.Model.Creation

/-!
# Creating a payment (`app/api/payments/route.ts`)

Who may send, then what the body says, then who the parties are; and the payment is written with its
first event, or not at all. Any number of requests are served at once.
-/

set_option autoImplicit false

namespace SettlementOS.Program.Creation

open SettlementOS.Computation Model Model.Creation

/-- A computation on the rows. -/
abbrev Operation (α : Type) := Prog creationEffects Err α

/-- A statement: it answers, or throws. -/
def call (o : CreationStmt) : Operation o.Result := .perform o fun r => Prog.ofExcept r

/-! ## The body -/

/-- `CreatePaymentBody`, with the strings it has. -/
structure CreatePaymentBody where
  senderId : Option String := none
  recipientId : Option String := none
  amount : Option String := none
  sourceCurrency : Option String := none
  destinationCurrency : Option String := none
  sourceNetwork : Option Network := none
  destinationNetwork : Option Network := none
  purpose : Option String := none
  referenceId : Option String := none
  memo : Option String := none
  deriving DecidableEq, Repr

/-- What an accepted body comes to. -/
structure Terms where
  senderId : String
  recipientId : String
  /-- as it was given -/
  amount : String
  canonical : String
  sourceCurrency : String
  destinationCurrency : String
  sourceNetwork : Network
  destinationNetwork : Network
  sourceAsset : AssetSymbol
  destinationAsset : AssetSymbol
  deriving DecidableEq, Repr

/-- What a route replies. -/
inductive Reply where
  | refused (error : ApiErrorResult)
  | created (paymentId : String) (status : PaymentStatus)
  deriving DecidableEq

/-- A body is not accepted: the caller is told why, or an error is thrown. -/
inductive Rejected where
  | refused (error : ApiErrorResult)
  | thrown (e : Err)

/-- A 400. -/
def reject (message : String) : Except Rejected Terms := .error (.refused (invalidRequest message))

/-- A field that is there, and not empty. -/
def given (field : Option String) : Option String := field.filter (· ≠ "")

/-- The first of the networks that has no contracts, where contracts are there at all. -/
def missingNetwork (deploy : Deploy) (networks : List Network) : Option Network :=
  if deploy.isChainReady then networks.find? fun n => !found (deploy.deployments.networks n) n
  else none

/-- How its contracts would get there. -/
def deployHint (deploy : Deploy) (missing : Network) : String :=
  if (deploy.networks missing).any NetworkInfo.live then "run: npm run deploy:" ++ missing
  else "run: npm run setup"

/-- `canonicalAmount` in a currency that is an inherited name: no fraction is longer than what is
found for its decimals, and that makes no `BigInt`. -/
def inheritedAmount (amount currency : String) : Err :=
  match parseScaledUnits amount amount.length "amount" none with
  | .error e => e
  | .ok _ => .error ("Cannot convert the decimals of " ++ currency ++ " to a BigInt")

/-- `canonicalAmount`, in a currency that was found. -/
def canonicalIn (amount currency : String) : Except Err String :=
  if (currencyToAsset currency).isNone then .error (inheritedAmount amount currency)
  else canonicalAmount amount currency

/-- The checks that read no rows. -/
def validate (deploy : Deploy) (body : CreatePaymentBody) : Except Rejected Terms :=
  let sourceNetwork := body.sourceNetwork.getD "base-local"
  let destinationNetwork := body.destinationNetwork.getD "base-local"
  if !found (deploy.networks sourceNetwork) sourceNetwork ||
      !found (deploy.networks destinationNetwork) destinationNetwork then
    reject ("unknown network — supported: " ++ ", ".intercalate deploy.networkIds)
  else
    match missingNetwork deploy [sourceNetwork, destinationNetwork] with
    | some missing =>
      reject ("network " ++ missing ++ " has no deployed contracts — " ++ deployHint deploy missing)
    | none =>
      match given body.senderId, given body.recipientId, given body.amount,
        given body.sourceCurrency, given body.destinationCurrency with
      | some senderId, some recipientId, some amount, some sourceCurrency,
          some destinationCurrency =>
        if !found (currencyToAsset sourceCurrency) sourceCurrency ||
            !found (currencyToAsset destinationCurrency) destinationCurrency then
          reject "unsupported currency"
        else
          -- the source currency says how much precision is legal
          match canonicalIn amount sourceCurrency with
          | .error (.money _ message) => reject message
          | .error e => .error (.thrown e)
          | .ok canonical =>
            if sourceCurrency ≠ destinationCurrency ∧
                (midRates sourceCurrency destinationCurrency).isNone then
              reject "unsupported corridor"
            else
              match currencyToAsset sourceCurrency, currencyToAsset destinationCurrency with
              | some sourceAsset, some destinationAsset =>
                .ok ⟨senderId, recipientId, amount, canonical, sourceCurrency, destinationCurrency,
                  sourceNetwork, destinationNetwork, sourceAsset, destinationAsset⟩
              -- no inherited name has a canonical amount, or a corridor
              | _, _ => .error (.thrown (.error "an asset is no string"))
      | _, _, _, _, _ =>
        reject "sender_id, recipient_id, amount, source_currency, destination_currency are required"

/-! ## The route -/

/-- The row of a payment on these terms. -/
def createdRow (body : CreatePaymentBody) (terms : Terms) (sender recipient : Entity)
    (id : String) : CreatedPayment where
  senderId := sender.id
  payment := ⟨id, recipient.id, terms.canonical, terms.sourceCurrency, terms.destinationCurrency,
    terms.sourceNetwork, terms.destinationNetwork⟩
  sourceAsset := terms.sourceAsset
  destinationAsset := terms.destinationAsset
  purpose := body.purpose.getD ""
  referenceId := body.referenceId.getD ""
  memo := body.memo.getD ""

/-- Its first event. -/
def paymentCreated (principal : Principal) (terms : Terms) (id : String) : AuditRecord :=
  ⟨createdAction, actorOf principal, some id,
    [("sender", .str terms.senderId), ("recipient", .str terms.recipientId),
      ("amount", .str terms.canonical),
      ("corridor", .str (terms.sourceCurrency ++ "-" ++ terms.destinationCurrency)),
      ("route", .str (terms.sourceNetwork ++ " → " ++ terms.destinationNetwork))]⟩

/-- A payment between the parties the terms name. -/
def createBetween (principal : Principal) (body : CreatePaymentBody) (terms : Terms) :
    Operation Reply := do
  let sender ← call (.findByExternalId terms.senderId)
  let recipient ← call (.findByExternalId terms.recipientId)
  match sender, recipient with
  | some sender, some recipient =>
    let hex ← call .randomId
    let id := "pay_" ++ hex
    let status ← call (.create (createdRow body terms sender recipient id)
      (paymentCreated principal terms id))
    return .created id status
  -- which of the two is unknown is not said
  | _, _ => return .refused notFound

/-- A payment, of a caller who may send it. -/
def createAccepted (deploy : Deploy) (principal : Principal) (body : CreatePaymentBody) :
    Operation Reply :=
  match validate deploy body with
  | .error (.refused e) => return .refused e
  | .error (.thrown e) => .throw e
  | .ok terms => createBetween principal body terms

/-- The entity of a caller. -/
def ownEntity (principal : Principal) : Operation (Option Entity) :=
  match given principal.entityId with
  | some entityId => call (.findEntity entityId)
  | none => return none

/-- `createPayment` -/
def createPayment (deploy : Deploy) (principal : Principal) (body : CreatePaymentBody) :
    Operation Reply :=
  match principal.role with
  | .reviewer => return .refused forbidden
  | .operator => createAccepted deploy principal body
  | .entity => do
    match ← ownEntity principal with
    | none => return .refused forbidden
    | some own =>
      if body.senderId ≠ some own.externalId then return .refused forbidden
      else createAccepted deploy principal body

/-! ## The service -/

/-- A request: who asks, and the body. -/
structure Request where
  principal : Principal
  body : CreatePaymentBody
  deriving DecidableEq, Repr

/-- The requests, interleaved; `deploy i` is the deploy that serves request `i`. -/
@[reducible] def service (deploy : ℕ → Deploy) : Service where
  E := creationEffects
  State := CreationState
  Choice := CreationChoice
  exec _ o c s := some (exec o c s)
  Outside := Outsider
  outside := outsider
  Request := Request
  Fault := Err
  Result := Reply
  program i r := createPayment (deploy i) r.principal r.body

end SettlementOS.Program.Creation
