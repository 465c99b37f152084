import SettlementOS.Computation.JsValue
import SettlementOS.Model.Compliance

/-!
# The sanctions vendor (`lib/providers/opensanctions.ts`, `lib/providers/http.ts`)

One request screens all parties of a payment. What comes back is a third party's JSON: it is read
through optional chaining, and whatever is thrown on the way fails safe to a review.
-/

set_option autoImplicit false

namespace SettlementOS.Program.OpenSanctions

open SettlementOS.Computation Model

/-- `PROVIDER_NAME` -/
def providerName : String := "opensanctions"

/-- `POSSIBLE_MATCH_SCORE` -/
def possibleMatchScore : ℚ := 1 / 2

/-- `ScreeningParty.kind` -/
inductive PartyKind where
  | sender
  | recipient
  deriving DecidableEq, Repr

/-- The kind as the queries spell it. -/
def PartyKind.name : PartyKind → String
  | .sender => "sender"
  | .recipient => "recipient"

/-- `ScreeningParty` -/
structure ScreeningParty where
  kind : PartyKind
  name : String
  country : Option String
  deriving DecidableEq, Repr

/-! ## The request -/

/-- One query of a request. -/
structure Query where
  schema : String
  name : List String
  country : Option (List String)
  deriving DecidableEq, Repr

/-- A request to the vendor. -/
structure MatchRequest where
  url : String
  method : String
  contentType : String
  authorization : String
  queries : List (String × Query)
  deriving DecidableEq, Repr

/-- What the environment has of the vendor. -/
structure VendorEnv where
  apiUrl : Option String
  apiKey : Option String

/-- `baseUrl`: an empty string is none, and one slash at the end is dropped. -/
def baseUrl (env : VendorEnv) : String :=
  let url := (env.apiUrl.filter (· ≠ "")).getD "https://api.opensanctions.org"
  if url.endsWith "/" then String.ofList url.toList.dropLast else url

/-- The query of a party; an empty country is none. -/
def queryOf (party : ScreeningParty) : Query where
  schema := "Company"
  name := [party.name]
  country := (party.country.filter (· ≠ "")).map fun country => [country]

/-- Adding a query: one of the same kind is replaced. -/
def addQuery (queries : List (String × Query)) (party : ScreeningParty) : List (String × Query) :=
  let query := (party.kind.name, queryOf party)
  if queries.any (·.1 = query.1) then
    queries.map fun asked => if asked.1 = query.1 then query else asked
  else queries ++ [query]

/-- The request that screens the parties. -/
def matchRequest (env : VendorEnv) (parties : List ScreeningParty) : MatchRequest where
  url := s!"{baseUrl env}/match/default"
  method := "POST"
  contentType := "application/json"
  authorization := "ApiKey " ++ env.apiKey.getD "undefined"
  queries := parties.foldl addQuery []

/-- A response: its status and its body, unless that cannot be read or is no JSON. -/
structure HttpResponse where
  status : ℕ
  body : Option JsValue

/-- `fetchJson`, with what the network answers: the response, or the error of the request. -/
def fetchJson (answer : Except String HttpResponse) : Except String (ℕ × JsValue) :=
  answer.map fun res => (res.status, res.body.getD .null)

/-! ## The result -/

/-- What is kept of an answer. -/
inductive RawResponse where
  | body (body : JsValue)
  | failure (error : String) (httpStatus : Option ℕ) (body : JsValue)

/-- A `ProviderResult` of this vendor, with its evidence. -/
structure VendorResult where
  provider : String
  status : ComplianceStatus
  score : JsNumber
  reasonCodes : List String
  raw : RawResponse

/-- A score that is a constant. -/
def fixedScore (n : ℕ) : JsNumber := some (magnitude n)

/-- `failSafe` -/
def failSafe (provider error : String) (httpStatus : Option ℕ) (body : Option JsValue) :
    VendorResult where
  provider := provider
  status := .manualReview
  score := fixedScore 60
  -- a status of zero is no status
  reasonCodes := ["provider_error", match httpStatus.filter (· ≠ 0) with
    | some status => s!"provider_http_{status}"
    | none => "provider_unreachable"]
  raw := .failure error httpStatus (body.getD .null)

/-! ## The answer -/

/-- `responses[p.kind]?.results ?? []`, as the loop goes through it. -/
def resultsOf (body : JsValue) (kind : PartyKind) : Except JsError (List JsValue) :=
  let responses := JsValue.orElse (body.field "responses") (.object [])
  let results := (responses.field kind.name).bind (JsValue.field "results")
  (JsValue.orElse results (.array [])).iterate

/-- `r.score ?? 0`, as `Math.max` takes it. -/
def scoreOf (rt : Runtime) (r : JsValue) : Except JsError JsNumber :=
  match r with
  | .null => .error .readOfNull
  | r => (JsValue.orElse (r.field "score") (.number (magnitude 0))).toNumber rt

/-- Whether `r.match` is truthy. Every string has a method of that name. -/
def isMatch (r : JsValue) : Bool :=
  match r with
  | .string _ => true
  | r => (r.field "match").any JsValue.truthy

/-- The state of the loops. -/
structure Tally where
  maxScore : JsNumber := fixedScore 0
  matchReasons : List String := []

/-- The reason code of a match. -/
def matchReason (kind : PartyKind) : String := s!"{kind.name}_sanctions_list_match"

/-- One result. -/
def tallyResult (rt : Runtime) (kind : PartyKind) (tally : Tally) (r : JsValue) :
    Except JsError Tally := do
  let score ← scoreOf rt r
  let matchReasons :=
    if isMatch r && !tally.matchReasons.contains (matchReason kind) then
      tally.matchReasons ++ [matchReason kind]
    else tally.matchReasons
  return { maxScore := maxNumber tally.maxScore score, matchReasons := matchReasons }

/-- All results of one party. -/
def tallyParty (rt : Runtime) (body : JsValue) (tally : Tally) (party : ScreeningParty) :
    Except JsError Tally := do
  let results ← resultsOf body party.kind
  results.foldlM (tallyResult rt party.kind) tally

/-- What is made of a tally; `round` is `Math.round` of a hundred times the score. -/
def conclude (round : JsNumber → JsNumber) (tally : Tally) (body : JsValue) : VendorResult :=
  let result := fun status score reasons =>
    (⟨providerName, status, score, reasons, .body body⟩ : VendorResult)
  if tally.matchReasons ≠ [] then result .fail (fixedScore 100) tally.matchReasons
  else if atLeast possibleMatchScore tally.maxScore then
    result .manualReview (round tally.maxScore) ["sanctions_possible_match"]
  else result .pass (round tally.maxScore) []

/-- `openSanctionsScreen`, with the network that answers the request. -/
def openSanctionsScreen (rt : Runtime) (round : JsNumber → JsNumber) (env : VendorEnv)
    (network : MatchRequest → Except String HttpResponse) (parties : List ScreeningParty) :
    VendorResult :=
  match fetchJson (network (matchRequest env parties)) with
  | .error message => failSafe providerName message none none
  | .ok (status, body) =>
    if status ≠ 200 then
      failSafe providerName s!"unexpected status {status}" (some status) (some body)
    else
      match parties.foldlM (tallyParty rt body) {} with
      | .error e => failSafe providerName (rt.messageOf e) none none
      | .ok tally => conclude round tally body

end SettlementOS.Program.OpenSanctions
